import Multistage.MergeRule
/-!
# Merging sparse vectors, index by index

`get?_mergeSparse` says what a merged vector stores at an index, zeros left out or not.  A vector is known by
its dimension and what it stores, so this is all there is to know about merging.
-/
namespace Multistage

open Sparse

namespace Sparse

theorem lookup_filter {l : List Entry} (h : Ascending l) (keep : Binary64 → Bool) (i : Nat) :
    lookup (l.filter fun e => keep e.value) i = (lookup l i).filter keep := by
  refine Option.ext fun v => ?_
  have filtered : Ascending (l.filter fun e => keep e.value) := h.filter _
  rw [filtered.lookup_eq_some_iff, List.mem_filter, Option.filter_eq_some_iff, h.lookup_eq_some_iff]

/-- A line holds nothing at its width or beyond. -/
theorem IsLine.lookup_eq_none {width i : Nat} {l : List Entry} (h : IsLine width l) (le : width ≤ i) :
    lookup l i = none := by
  refine lookup_eq_none_iff.2 fun e he same => ?_
  have := h.bounded e he
  omega

theorem mem_of_mem_lastWrites {writes : List Entry} {e : Entry} (h : e ∈ lastWrites writes) : e ∈ writes := by
  have found := (ascending_lastWrites writes).lookup_eq_some_iff.2 h
  rw [lookup_lastWrites] at found
  exact List.mem_reverse.1 (mem_of_lookup found)

end Sparse

namespace MergeRule

/-- The value of a merged index: the base where nothing overrides it, and else the combined value. -/
def mergeValue (rule : MergeRule) (base? change? : Option Binary64) : Option Binary64 :=
  match change? with
  | none => base?
  | some w => some (rule.combine (base?.getD 0) w)

/-- Leaves out a value equal to zero, if zeros are to be dropped. -/
def keepValue (dropZeros : Bool) (value? : Option Binary64) : Option Binary64 :=
  value?.filter fun v => !(dropZeros && v.isZero)

@[simp] theorem keepValue_false (value? : Option Binary64) : keepValue false value? = value? := by
  cases value? <;> rfl

@[simp] theorem dim_mergeSparse (rule : MergeRule) (base changes : SparseVector) (dropZeros : Bool) :
    (rule.mergeSparse base changes dropZeros).dim = max base.dim changes.dim := rfl

/-- **What a merged vector stores.** -/
theorem get?_mergeSparse (rule : MergeRule) (base changes : SparseVector) (dropZeros : Bool) (i : Nat) :
    (rule.mergeSparse base changes dropZeros).get? i =
      keepValue dropZeros (rule.mergeValue (base.get? i) (changes.get? i)) := by
  have merged := rule.isLine_mergeLine base.isLine changes.isLine
  rw [SparseVector.get?, mergeSparse, lookup_filter merged.ascending (fun v => !(dropZeros && v.isZero)),
    rule.lookup_mergeLine base.isLine.ascending changes.isLine.ascending]
  rfl

end MergeRule
end Multistage
