/-!
# Binary64 values, told apart by their bits

Every number of a program is a 64-bit word in the IEEE 754 binary64 format.  Two different words may
be equal as numbers (`0.0` and `-0.0`) or unequal to themselves (every NaN), and stored data is compared
word by word, so the type is the word: `=` is equality of bits.  The order is the numeric one, in which a
NaN is comparable to nothing.

The order and the zero test are read off the word with `Nat` and `Int` arithmetic, so that proofs need
nothing about hardware.  Only the sum goes through `Float`.
-/
namespace Multistage

structure Binary64 where
  bits : UInt64
deriving DecidableEq, Repr, Inhabited

namespace Binary64

/-- The word without its sign bit, the topmost of the 64. -/
def magnitude (x : Binary64) : Nat := x.bits.toNat % 0x8000000000000000

def isNegative (x : Binary64) : Bool := 0x8000000000000000 ≤ x.bits.toNat

/-- The magnitude of both infinities; a larger one belongs to a NaN. -/
def infinityMagnitude : Nat := 0x7ff0000000000000

def isNaN (x : Binary64) : Bool := infinityMagnitude < x.magnitude

def isFinite (x : Binary64) : Bool := x.magnitude < infinityMagnitude

/-- Equal to `0.0` as a number, whatever the sign. -/
def isZero (x : Binary64) : Bool := x.magnitude = 0

def ofMagnitude (negative : Bool) (magnitude : Nat) : Binary64 :=
  ⟨UInt64.ofNat (if negative then 0x8000000000000000 + magnitude else magnitude)⟩

def posInf : Binary64 := ⟨0x7ff0000000000000⟩

def negInf : Binary64 := ⟨0xfff0000000000000⟩

def nan : Binary64 := ⟨0x7ff8000000000000⟩

instance : Zero Binary64 := ⟨⟨0⟩⟩

/-- Flips the sign bit, also of a zero or a NaN. -/
instance : Neg Binary64 := ⟨fun x => ⟨x.bits ^^^ 0x8000000000000000⟩⟩

instance : Add Binary64 := ⟨fun x y => ⟨(Float.ofBits x.bits + Float.ofBits y.bits).toBits⟩⟩

/-- The place of a number on the line: within one sign the words are ordered as the numbers are. -/
def position (x : Binary64) : Int := if x.isNegative then -x.magnitude else x.magnitude

/-- The numeric order; a NaN is neither below nor above anything. -/
instance : LE Binary64 := ⟨fun x y => x.isNaN = false ∧ y.isNaN = false ∧ x.position ≤ y.position⟩

theorem le_iff {x y : Binary64} : x ≤ y ↔ x.isNaN = false ∧ y.isNaN = false ∧ x.position ≤ y.position :=
  Iff.rfl

instance (x y : Binary64) : Decidable (x ≤ y) := decidable_of_iff _ le_iff.symm

theorem le_trans {x y z : Binary64} (h : x ≤ y) (k : y ≤ z) : x ≤ z :=
  ⟨h.1, k.2.1, Int.le_trans h.2.2 k.2.2⟩

theorem le_posInf {x : Binary64} (h : x.isNaN = false) : x ≤ posInf := by
  refine ⟨h, by decide, ?_⟩
  have hp : posInf.position = infinityMagnitude := by decide
  simp only [isNaN, decide_eq_false_iff_not, Nat.not_lt] at h
  rw [hp, position]
  split <;> omega

theorem negInf_le {x : Binary64} (h : x.isNaN = false) : negInf ≤ x := by
  refine ⟨by decide, h, ?_⟩
  have hp : negInf.position = -infinityMagnitude := by decide
  simp only [isNaN, decide_eq_false_iff_not, Nat.not_lt] at h
  rw [hp, position]
  split <;> omega

/-- The word is its sign and its magnitude. -/
theorem ofMagnitude_magnitude (x : Binary64) : ofMagnitude x.isNegative x.magnitude = x := by
  rcases x with ⟨w⟩
  have hw := w.toNat_lt
  have h : (if isNegative ⟨w⟩ then 0x8000000000000000 + magnitude ⟨w⟩ else magnitude ⟨w⟩) = w.toNat := by
    simp only [isNegative, magnitude, decide_eq_true_eq]
    split <;> omega
  rw [ofMagnitude, h, UInt64.ofNat_toNat]

end Binary64
end Multistage
