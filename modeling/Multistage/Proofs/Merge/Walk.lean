import Multistage.Proofs.Merge
/-!
# Merging in one pass

`mergeSparse` gathers what it merges in a finite map.  The same can be had without one: the base is spread over an array of
zeros, the changes are merged onto it in place, and the indices of both vectors are walked side by side to read the array
out.  `mergeByWalk?_eq` says that the two ways agree at every index, however the indices of the vectors alternate and
whichever of them ends first.

`merged_mergeSparse` says what either comes to: which indices are stored, and what at each of them.
-/
namespace Multistage

open Sparse

namespace Sparse

/-- The indices of two ascending lists, each once: the smaller head goes first, and two equal heads go together. -/
def walk : List Nat → List Nat → List Nat
  | [], [] => []
  | i :: k, [] => i :: walk k []
  | [], j :: l => j :: walk [] l
  | i :: k, j :: l => if i = j then i :: walk k l else if i < j then i :: walk k (j :: l) else j :: walk (i :: k) l
termination_by k l => k.length + l.length

theorem mem_walk {k l : List Nat} {x : Nat} : x ∈ walk k l ↔ x ∈ k ∨ x ∈ l := by
  fun_induction walk k l with
  | case1 => simp
  | case2 i k ih => simp [ih]
  | case3 j l ih => simp [ih]
  | case4 i k l ih => grind
  | case5 i k j l _ _ ih => simp [ih, or_assoc]
  | case6 i k j l _ _ ih => simp [ih, or_left_comm]

/-- **The walk goes upwards**, if both lists do. -/
theorem ascending_walk {k l : List Nat} (hk : k.Pairwise (· < ·)) (hl : l.Pairwise (· < ·)) :
    (walk k l).Pairwise (· < ·) := by
  fun_induction walk k l with
  | case1 => exact .nil
  | case2 i k ih =>
    obtain ⟨first, rest⟩ := List.pairwise_cons.1 hk
    refine .cons (fun x hx => ?_) (ih rest hl)
    exact first x ((mem_walk.1 hx).resolve_right (List.not_mem_nil))
  | case3 j l ih =>
    obtain ⟨first, rest⟩ := List.pairwise_cons.1 hl
    refine .cons (fun x hx => ?_) (ih hk rest)
    exact first x ((mem_walk.1 hx).resolve_left (List.not_mem_nil))
  | case4 i k l ih =>
    obtain ⟨firstK, restK⟩ := List.pairwise_cons.1 hk
    obtain ⟨firstL, restL⟩ := List.pairwise_cons.1 hl
    refine .cons (fun x hx => ?_) (ih restK restL)
    exact (mem_walk.1 hx).elim (firstK x) (firstL x)
  | case5 i k j l _ lt ih =>
    obtain ⟨first, rest⟩ := List.pairwise_cons.1 hk
    refine .cons (fun x hx => ?_) (ih rest hl)
    rcases mem_walk.1 hx with inK | inL
    · exact first x inK
    · rcases List.mem_cons.1 inL with rfl | later
      · exact lt
      · exact Nat.lt_trans lt (List.rel_of_pairwise_cons hl later)
  | case6 i k j l ne le ih =>
    obtain ⟨first, rest⟩ := List.pairwise_cons.1 hl
    have lt : j < i := by omega
    refine .cons (fun x hx => ?_) (ih hk rest)
    rcases mem_walk.1 hx with inK | inL
    · rcases List.mem_cons.1 inK with rfl | later
      · exact lt
      · exact Nat.lt_trans lt (List.rel_of_pairwise_cons hk later)
    · exact first x inL

/-- What an array holds at some indices, zeros left out if they are to be dropped. -/
def readOut (a : Array Binary64) (dropZeros : Bool) (indices : List Nat) : List Entry :=
  (indices.map fun i => ⟨i, a.getD i 0⟩).filter fun e => !(dropZeros && e.value.isZero)

theorem lookup_map_entry (value : Nat → Binary64) (indices : List Nat) (i : Nat) :
    lookup (indices.map fun i => ⟨i, value i⟩) i = if i ∈ indices then some (value i) else none := by
  induction indices with
  | nil => rfl
  | cons j indices ih =>
    rw [List.map_cons, lookup_cons, ih]
    by_cases h : j = i
    · simp [h]
    · simp [h, Ne.symm h]

end Sparse

namespace SparseVector

/-- The indices at which a vector stores something, in order. -/
def indices (v : SparseVector) : List Nat := v.entries.map (·.index)

theorem ascending_indices (v : SparseVector) : v.indices.Pairwise (· < ·) := by
  rw [indices, List.pairwise_map]
  exact v.isLine.ascending

theorem mem_indices {v : SparseVector} {i : Nat} : i ∈ v.indices ↔ ∃ x, v.get? i = some x := by
  rw [indices, List.mem_map]
  constructor
  · rintro ⟨⟨i, x⟩, he, rfl⟩
    exact ⟨x, v.isLine.ascending.lookup_eq_some_iff.2 he⟩
  · rintro ⟨x, hx⟩
    exact ⟨⟨i, x⟩, mem_of_lookup hx, rfl⟩

theorem not_mem_indices {v : SparseVector} {i : Nat} : i ∉ v.indices ↔ v.get? i = none := by
  rw [mem_indices, Option.eq_none_iff_forall_ne_some, not_exists]

theorem lt_dim {v : SparseVector} {i : Nat} (h : i ∈ v.indices) : i < v.dim := by
  obtain ⟨x, hx⟩ := mem_indices.1 h
  exact v.isLine.bounded ⟨i, x⟩ (mem_of_lookup hx)

/-- The same entries, in a dimension that is no less than a given one. -/
def widen (v : SparseVector) (n : Nat) : SparseVector where
  dim := max v.dim n
  entries := v.entries
  isLine := ⟨v.isLine.ascending, fun e he => Nat.lt_of_lt_of_le (v.isLine.bounded e he) (Nat.le_max_left ..)⟩

end SparseVector

namespace MergeRule

variable (rule : MergeRule) (base changes : SparseVector) (dropZeros : Bool)

/-- The base over zeros, as wide as the wider of the two vectors, with the changes merged onto it. -/
def scratch : Array Binary64 := rule.scatter ((base.widen changes.dim).fill 0) changes.entries

theorem scratch_getElem? (i : Nat) : (rule.scratch base changes)[i]? =
    if i < max base.dim changes.dim then rule.mergeValue (some ((base.get? i).getD 0)) (changes.get? i) else none := by
  rw [scratch, rule.scatter_getElem? changes.isLine.ascending, SparseVector.fill_getElem?]
  by_cases inside : i < max base.dim changes.dim
  · rw [if_pos (show i < (base.widen changes.dim).dim from inside), if_pos inside, Option.map_some]
    show some (((changes.get? i).map _).getD ((base.get? i).getD 0)) = _
    cases changes.get? i <;> rfl
  · rw [if_neg (show ¬ i < (base.widen changes.dim).dim from inside), if_neg inside, Option.map_none]

@[simp] theorem size_scratch : (rule.scratch base changes).size = max base.dim changes.dim := by
  rw [scratch, size_scatter, SparseVector.size_fill]
  rfl

/-- What is walked lies within the array that it is read from. -/
theorem lt_size_scratch {i : Nat} (h : i ∈ walk base.indices changes.indices) : i < (rule.scratch base changes).size := by
  rw [size_scratch]
  rcases mem_walk.1 h with inBase | inChanges
  · exact Nat.lt_of_lt_of_le (SparseVector.lt_dim inBase) (Nat.le_max_left ..)
  · exact Nat.lt_of_lt_of_le (SparseVector.lt_dim inChanges) (Nat.le_max_right ..)

/-- What the array holds at the indices that are walked is what the two vectors merge to. -/
theorem mergeValue_eq_scratch (i : Nat) : rule.mergeValue (base.get? i) (changes.get? i) =
    if i ∈ walk base.indices changes.indices then some ((rule.scratch base changes).getD i 0) else none := by
  by_cases walked : i ∈ walk base.indices changes.indices
  · have inside := rule.lt_size_scratch base changes walked
    rw [size_scratch] at inside
    rw [if_pos walked, Array.getD_eq_getD_getElem?, scratch_getElem?, if_pos inside]
    rw [mem_walk, SparseVector.mem_indices, SparseVector.mem_indices] at walked
    cases hb : base.get? i <;> cases hc : changes.get? i <;> simp_all [mergeValue]
  · rw [if_neg walked]
    rw [mem_walk, not_or, SparseVector.not_mem_indices, SparseVector.not_mem_indices] at walked
    rw [walked.1, walked.2]
    rfl

/-- Merging without a map: the array is read out along the walk, and what is read has to pass as a vector. -/
def mergeByWalk? : Except Fault SparseVector :=
  SparseVector.ofEntries? (max base.dim changes.dim)
    (readOut (rule.scratch base changes) dropZeros (walk base.indices changes.indices))

/-- **Reading the array out along the walk yields the merged vector**, and what is read always passes. -/
theorem mergeByWalk?_eq : rule.mergeByWalk? base changes dropZeros = .ok (rule.mergeSparse base changes dropZeros) := by
  refine SparseVector.ofEntries?_eq_ok.2 ⟨rfl, ?_⟩
  have walked : Ascending ((walk base.indices changes.indices).map fun i => ⟨i, (rule.scratch base changes).getD i 0⟩) := by
    rw [Ascending, List.pairwise_map]
    exact ascending_walk base.ascending_indices changes.ascending_indices
  have read : Ascending (readOut (rule.scratch base changes) dropZeros (walk base.indices changes.indices)) :=
    walked.filter _
  refine (rule.mergeSparse base changes dropZeros).isLine.ascending.ext read fun i => ?_
  show (rule.mergeSparse base changes dropZeros).get? i = _
  rw [get?_mergeSparse, readOut, lookup_filter walked fun v => !(dropZeros && v.isZero), lookup_map_entry,
    mergeValue_eq_scratch]
  rfl

/-- What an index merges to: the base's value where it is alone, and else the value of both. -/
inductive MergesTo (i : Nat) : Binary64 → Prop
  | alone {v} (stored : base.get? i = some v) (unchanged : changes.get? i = none) : MergesTo i v
  | both {v w} (stored : base.get? i = some v) (changed : changes.get? i = some w) : MergesTo i (rule.combine v w)
  | onto {w} (absent : base.get? i = none) (changed : changes.get? i = some w) : MergesTo i (rule.combine 0 w)

theorem mergesTo_iff {i : Nat} {v : Binary64} :
    rule.MergesTo base changes i v ↔ rule.mergeValue (base.get? i) (changes.get? i) = some v := by
  constructor
  · rintro (⟨stored, unchanged⟩ | ⟨stored, changed⟩ | ⟨absent, changed⟩)
    · rw [stored, unchanged]; rfl
    · rw [stored, changed]; rfl
    · rw [absent, changed]; rfl
  · intro merges
    cases hb : base.get? i <;> cases hc : changes.get? i <;> rw [hb, hc] at merges <;> cases merges
    · exact .onto hb hc
    · exact .alone hb hc
    · exact .both hb hc

/-- What merging two vectors comes to. -/
structure Merged (merged : SparseVector) : Prop where
  dim : merged.dim = max base.dim changes.dim
  ascending : merged.indices.Pairwise (· < ·)
  bounded : ∀ i ∈ merged.indices, i < merged.dim
  /-- The indices of both vectors are stored, but for those that merge to a zero if zeros are to be dropped. -/
  mem_indices : ∀ i, i ∈ merged.indices ↔ (i ∈ base.indices ∨ i ∈ changes.indices) ∧
    ∀ v, rule.MergesTo base changes i v → ¬ (dropZeros = true ∧ v.isZero = true)
  value : ∀ i v, merged.get? i = some v → rule.MergesTo base changes i v
  nan : ∀ i v, rule.MergesTo base changes i v → v.isNaN = true → merged.get? i = some v
  /-- One pass over both lists of indices leads to the same vector, and reads nothing from beyond the array. -/
  walked : rule.mergeByWalk? base changes dropZeros = .ok merged
  within : ∀ i ∈ walk base.indices changes.indices, i < (rule.scratch base changes).size

/-- **Merging two vectors stores the union of their indices, each with the value that it merges to**, less the zeros if they
are to be dropped. -/
theorem merged_mergeSparse : rule.Merged base changes dropZeros (rule.mergeSparse base changes dropZeros) := by
  have stored : ∀ i v, (rule.mergeSparse base changes dropZeros).get? i = some v ↔
      rule.MergesTo base changes i v ∧ ¬ (dropZeros = true ∧ v.isZero = true) := fun i v => by
    rw [get?_mergeSparse, keepValue, Option.filter_eq_some_iff, mergesTo_iff, Bool.not_eq_true', Bool.and_eq_false_iff,
      Classical.not_and_iff_not_or_not, Bool.not_eq_true, Bool.not_eq_true]
  exact {
    dim := rfl
    ascending := SparseVector.ascending_indices _
    bounded := fun i h => SparseVector.lt_dim h
    mem_indices := fun i => by
      rw [SparseVector.mem_indices, ← mem_walk]
      have merges := rule.mergeValue_eq_scratch base changes i
      constructor
      · rintro ⟨v, hv⟩
        obtain ⟨merged, kept⟩ := (stored i v).1 hv
        have value := (rule.mergesTo_iff base changes).1 merged
        refine ⟨Classical.byContradiction fun apart => ?_, fun w hw => ?_⟩
        · rw [merges, if_neg apart] at value
          cases value
        · rw [(rule.mergesTo_iff base changes).1 hw] at value
          cases value
          exact kept
      · rintro ⟨walked, kept⟩
        rw [if_pos walked] at merges
        have merged := (rule.mergesTo_iff base changes).2 merges
        exact ⟨_, (stored i _).2 ⟨merged, kept _ merged⟩⟩
    value := fun i v hv => ((stored i v).1 hv).1
    nan := fun i v merged isNaN => (stored i v).2 ⟨merged, fun zero => by
      have zero := of_decide_eq_true zero.2
      have isNaN := of_decide_eq_true isNaN
      rw [zero] at isNaN
      exact Nat.not_lt_zero _ isNaN⟩
    walked := rule.mergeByWalk?_eq base changes dropZeros
    within := fun i h => rule.lt_size_scratch base changes h }

end MergeRule
end Multistage
