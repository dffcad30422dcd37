import Multistage.Binary64
/-!
# Decimals, and the binary64 value nearest to one

A decimal is `± digits · 10 ^ exponent`, exactly.  Its binary64 value is the nearest one, of two equally near
the one with an even word; beyond the largest finite value it is an infinity.

All finite values are multiples of `2 ^ -1074`.  Counted in that unit a value is a natural number, and its
word is `s · 2 ^ 52 + m` when it is `m · 2 ^ s` with `m` in the top binade: a carry out of `m` moves to the
next exponent by itself, so subnormal, normal and overflowing values need no separate case.
-/
namespace Multistage

structure Decimal where
  negative : Bool
  digits : Nat
  exponent : Int
deriving DecidableEq, Repr

/-- The natural number nearest to `num / den`, the even one of two equally near. -/
def roundDiv (num den : Nat) : Nat :=
  if 2 * (num % den) < den then num / den
  else if den < 2 * (num % den) then num / den + 1
  else num / den + num / den % 2

theorem roundDiv_mul_right {a d : Nat} (hd : 0 < d) : roundDiv (a * d) d = a := by
  simp [roundDiv, Nat.mul_div_cancel _ hd, hd]

/-- The magnitude nearest to `num / den` units of `2 ^ -1074`. -/
def roundUnits (num den : Nat) : Nat :=
  let shift := (num / den).log2 - 52
  min Binary64.infinityMagnitude (shift <<< 52 + roundDiv num (den <<< shift))

namespace Decimal

/-- The magnitude of the nearest value.  Exponents so large or so small that the answer does not depend on
the digits are settled first, without computing the power of ten. -/
def magnitude (d : Decimal) : Nat :=
  if d.digits = 0 then 0
  else if 400 < d.exponent then Binary64.infinityMagnitude
  else if d.exponent < -(1100 + d.digits.log2 : Nat) then 0
  else match d.exponent with
    | .ofNat e => roundUnits ((d.digits * Nat.pow 10 e) <<< 1074) 1
    | .negSucc e => roundUnits (d.digits <<< 1074) (Nat.pow 10 (e + 1))

def toBinary64 (d : Decimal) : Binary64 := .ofMagnitude d.negative d.magnitude

end Decimal

namespace Binary64

/-- A finite value in units of `2 ^ -1074`, without its sign.  The exponent is above the 52 lowest bits, and above the
subnormal values a leading one is not written. -/
def units (x : Binary64) : Nat :=
  if x.magnitude < 0x10000000000000 then x.magnitude
  else (0x10000000000000 + x.magnitude % 0x10000000000000) <<< (x.magnitude / 0x10000000000000 - 1)

end Binary64

/-- How often two divides `n`, counted up to a limit. -/
def twos : Nat → Nat → Nat
  | 0, _ => 0
  | limit + 1, n => if n % 2 = 0 then twos limit (n / 2) + 1 else 0

/-- A finite binary64 value written out in full: what is left of the power of two in the unit turns into as many
decimal places. -/
def Decimal.ofBinary64 (x : Binary64) : Decimal :=
  let twos := twos 1074 x.units
  let places := 1074 - twos
  { negative := x.isNegative, digits := (x.units >>> twos) * Nat.pow 5 places, exponent := -places }

namespace Decimal

/-- The nearest decimal of at most so many digits. -/
def rounded (d : Decimal) (digits : Nat) : Decimal :=
  let cut := (Nat.toDigits 10 d.digits).length - digits
  { negative := d.negative, digits := roundDiv d.digits (Nat.pow 10 cut), exponent := d.exponent + cut }

/-- A finite binary64 value in as few digits as lead back to it.  Seventeen are always enough, but nothing rests on that:
were they not, the value would be written out in full. -/
def shortest (x : Binary64) : Decimal :=
  (((List.range' 1 17).map (rounded (ofBinary64 x))).find? fun d => d.toBinary64 = x).getD (ofBinary64 x)

end Decimal

end Multistage
