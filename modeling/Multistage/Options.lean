import Multistage.Field
import Multistage.MergeRule
/-!
# Options of a program

Fixed when a template is built, and inherited by every node of it.

Solvers write an absent bound as a large number.  Bounds at or beyond `infinity` are therefore stored as
infinities; `normalize` does that, and doing it twice changes nothing (`normalize_normalize`).
-/
namespace Multistage

structure Options where
  rule : MergeRule := .replace
  /-- The magnitude from which on a bound counts as infinite. -/
  infinity : Binary64 := ⟨0x46293e5939a08cea⟩
  dropZeros : Bool := true
deriving DecidableEq, Repr

namespace Options

/-- Takes bounds at or beyond the program's infinity to infinities. -/
def normalize (o : Options) (x : Binary64) : Binary64 :=
  if o.infinity ≤ x then .posInf else if x ≤ -o.infinity then .negInf else x

/-- A value as it is stored under a field: bounds are normalized, other values kept. -/
def stored (o : Options) (f : Field) (x : Binary64) : Binary64 := if f.isBound then o.normalize x else x

/-- Only objective coefficients are kept as they are given. -/
theorem stored_eq (o : Options) (f : Field) (x : Binary64) :
    o.stored f x = if f = .objective then x else o.normalize x := by cases f <;> rfl

theorem normalize_posInf (o : Options) (h : o.infinity.isNaN = false) : o.normalize .posInf = .posInf :=
  if_pos (Binary64.le_posInf h)

/-- **Normalizing twice changes nothing**, whatever the program counts as infinite. -/
@[simp] theorem normalize_normalize (o : Options) (x : Binary64) :
    o.normalize (o.normalize x) = o.normalize x := by
  by_cases hi : o.infinity ≤ x
  · rw [show o.normalize x = .posInf from if_pos hi, o.normalize_posInf hi.1]
  · by_cases hn : x ≤ -o.infinity
    · have hx : o.normalize x = .negInf := by rw [normalize, if_neg hi, if_pos hn]
      have below : ¬ o.infinity ≤ .negInf := fun h => hi (Binary64.le_trans h (Binary64.negInf_le hn.1))
      rw [hx, normalize, if_neg below, if_pos (Binary64.negInf_le hn.2.1)]
    · have hx : o.normalize x = x := by rw [normalize, if_neg hi, if_neg hn]
      rw [hx, hx]

@[simp] theorem stored_stored (o : Options) (f : Field) (x : Binary64) : o.stored f (o.stored f x) = o.stored f x := by
  cases bound : f.isBound <;> simp [stored, bound]

end Options
end Multistage
