/-!
# Text in JSON

A JSON text is a sequence of 16-bit units, and need not be well-formed: an escape can name one half of a
surrogate pair alone.  Keeping the units loses nothing, so whatever can be read can be written again; where only
well-formed text will do, `isPaired` tells.
-/
namespace Multistage.Json

/-- The units of a character: one, or a surrogate pair. -/
def unitsOfChar (c : Char) : List UInt16 :=
  if c.toNat < 0x10000 then [c.toNat.toUInt16]
  else
    let n := c.toNat - 0x10000
    [(0xd800 + n / 0x400).toUInt16, (0xdc00 + n % 0x400).toUInt16]

def units (s : String) : List UInt16 := s.toList.flatMap unitsOfChar

def isHigh (u : UInt16) : Bool := 0xd800 ≤ u && u < 0xdc00

def isLow (u : UInt16) : Bool := 0xdc00 ≤ u && u < 0xe000

/-- Every surrogate is half of a pair. -/
def isPaired : List UInt16 → Bool
  | [] => true
  | [u] => !isHigh u && !isLow u
  | u :: v :: us =>
    if isHigh u then isLow v && isPaired us else !isLow u && isPaired (v :: us)

def hexDigits (u : UInt16) : List Char :=
  [12, 8, 4, 0].map fun shift => Nat.digitChar ((u.toNat >>> shift) % 16)

/-- Printable ASCII other than the quote and the backslash stands for itself, all else is escaped. -/
def unitText (u : UInt16) : List Char :=
  if 0x20 ≤ u ∧ u < 0x7f ∧ u ≠ 0x22 ∧ u ≠ 0x5c then [Char.ofNat u.toNat]
  else '\\' :: 'u' :: hexDigits u

def quote (us : List UInt16) : List Char := '"' :: us.flatMap unitText ++ ['"']

end Multistage.Json
