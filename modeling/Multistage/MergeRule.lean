import Multistage.Buffer
import Multistage.Sparse.Vector
/-!
# Merging overrides onto base data

A program either replaces a base value by its override or adds the override to it.  The rule is applied in two
places, on a dense array and on a sparse line, and `scatter_getElem?` and `lookup_mergeLine` say the same of
both: the base where nothing overrides it, and the combined value elsewhere, with an absent base value
counted as zero.
-/
namespace Multistage

open Sparse

inductive MergeRule where
  | replace
  | add
deriving DecidableEq, Repr

namespace MergeRule

def combine : MergeRule → Binary64 → Binary64 → Binary64
  | replace, _, change => change
  | add, base, change => base + change

def scatter (rule : MergeRule) (buffer : Array Binary64) (changes : List Entry) : Array Binary64 :=
  changes.foldl (fun b e => b.modify e.index (rule.combine · e.value)) buffer

def mergeDense (rule : MergeRule) (changes : SparseVector) : BufferM Unit := do
  attempt (checkLength .mergeBase changes.dim (← get).size)
  modify (rule.scatter · changes.entries)

def overlay (rule : MergeRule) (cells : Cells) (e : Entry) : Cells :=
  cells.put ⟨e.index, rule.combine (cells[e.index]?.getD 0) e.value⟩

def mergeLine (rule : MergeRule) (base changes : List Entry) : List Entry :=
  (changes.foldl rule.overlay (base.foldl Cells.put (∅ : Cells))).toLine

theorem scatter_getElem? (rule : MergeRule) {changes : List Entry} (h : Ascending changes) (b : Array Binary64)
    (i : Nat) :
    (rule.scatter b changes)[i]? = b[i]?.map fun x => ((lookup changes i).map (rule.combine x)).getD x := by
  induction changes generalizing b with
  | nil => simp [scatter]
  | cons e l ih =>
    obtain ⟨he, hl⟩ := List.pairwise_cons.1 h
    have step : rule.scatter b (e :: l) = rule.scatter (b.modify e.index (rule.combine · e.value)) l := rfl
    rw [step, ih hl, lookup_cons, Array.getElem?_modify]
    by_cases hi : e.index = i
    · have : lookup l i = none := lookup_eq_none_iff.2 fun x hx => by have := he x hx; omega
      simp [hi, this, Function.comp_def]
    · simp [hi]

@[simp] theorem size_scatter (rule : MergeRule) (b : Array Binary64) (changes : List Entry) :
    (rule.scatter b changes).size = b.size := by
  induction changes generalizing b with
  | nil => rfl
  | cons e l ih => simpa [scatter] using ih (b.modify e.index (rule.combine · e.value))

theorem getElem?_foldl_overlay (rule : MergeRule) {changes : List Entry} (h : Ascending changes) (m : Cells)
    (i : Nat) :
    (changes.foldl rule.overlay m)[i]? =
      match lookup changes i with
      | none => m[i]?
      | some w => some (rule.combine (m[i]?.getD 0) w) := by
  induction changes generalizing m with
  | nil => rfl
  | cons e l ih =>
    obtain ⟨he, hl⟩ := List.pairwise_cons.1 h
    rw [List.foldl_cons, ih hl, lookup_cons, overlay, Cells.getElem?_put]
    by_cases hi : e.index = i
    · have : lookup l i = none := lookup_eq_none_iff.2 fun x hx => by have := he x hx; omega
      simp [hi, this]
    · simp [hi]

theorem lastWrite?_of_ascending {l : List Entry} (h : Ascending l) (i : Nat) : lastWrite? l i = lookup l i := by
  refine Option.ext fun v => ?_
  rw [h.lookup_eq_some_iff]
  refine ⟨fun hv => List.mem_reverse.1 (mem_of_lookup hv), fun hv => ?_⟩
  cases hw : lastWrite? l i with
  | none => exact absurd rfl (lookup_eq_none_iff.1 hw _ (List.mem_reverse.2 hv))
  | some w =>
    have := List.mem_reverse.1 (mem_of_lookup hw)
    rw [← h.lookup_eq_some_iff] at this hv
    rw [← this, hv]

/-- **Where nothing overrides it the base stays; elsewhere the two are combined.** -/
theorem lookup_mergeLine (rule : MergeRule) {base changes : List Entry} (hb : Ascending base)
    (ho : Ascending changes) (i : Nat) :
    lookup (rule.mergeLine base changes) i =
      match lookup changes i with
      | none => lookup base i
      | some w => some (rule.combine ((lookup base i).getD 0) w) := by
  have hc : (base.foldl Cells.put (∅ : Cells))[i]? = lookup base i := by
    simp [getElem?_foldl_put, lastWrite?_of_ascending hb]
  rw [mergeLine, Cells.lookup_toLine, getElem?_foldl_overlay rule ho, hc]

theorem isLine_mergeLine (rule : MergeRule) {base changes : List Entry} {m n : Nat} (hb : IsLine m base)
    (ho : IsLine n changes) : IsLine (max m n) (rule.mergeLine base changes) := by
  have ascending : Ascending (rule.mergeLine base changes) := Cells.ascending_toLine _
  refine ⟨ascending, fun ⟨i, v⟩ he => show i < _ from ?_⟩
  rw [← ascending.lookup_eq_some_iff, rule.lookup_mergeLine hb.ascending ho.ascending] at he
  cases hw : lookup changes i with
  | some w => exact Nat.lt_of_lt_of_le (ho.bounded ⟨i, w⟩ (mem_of_lookup hw)) (Nat.le_max_right ..)
  | none =>
    rw [hw] at he
    exact Nat.lt_of_lt_of_le (hb.bounded ⟨i, v⟩ (mem_of_lookup he)) (Nat.le_max_left ..)

/-- Merges two vectors of any dimensions, and then leaves out zeros if they are to be dropped. -/
def mergeSparse (rule : MergeRule) (base changes : SparseVector) (dropZeros : Bool) : SparseVector where
  dim := max base.dim changes.dim
  entries := (rule.mergeLine base.entries changes.entries).filter fun e => !(dropZeros && e.value.isZero)
  isLine :=
    have h := rule.isLine_mergeLine base.isLine changes.isLine
    ⟨h.ascending.filter _, fun e he => h.bounded e (List.mem_filter.1 he).1⟩

end MergeRule
end Multistage
