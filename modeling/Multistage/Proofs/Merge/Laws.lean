import Mathlib.Data.List.Sort
import Multistage.Proofs.Binary64
import Multistage.Proofs.Merge.Walk
import Multistage.Proofs.Outcome
/-!
# Merging twice, and merging into an array

Overrides of overrides: where overrides replace what is there, merging one vector of them after another is merging what the
two come to (`mergeSparse_composes`).  A zero that was dropped in between makes no difference, because an override looks at
nothing but itself; but the overrides themselves have to keep their zeros, since a zero takes out what it replaces.

Merging into an array is the same as merging two vectors and expanding the result over zeros (`fill_mergeSparse`), except
that a zero that is dropped comes back as a positive one, whatever its sign was.
-/
namespace Multistage

open Sparse

namespace Binary64

/-- There are two words that equal `0.0` as numbers. -/
theorem eq_zero_or_neg_zero {x : Binary64} (h : x.isZero = true) : x = 0 ∨ x = -0 := by
  have word := x.ofMagnitude_magnitude
  rw [of_decide_eq_true h] at word
  cases sign : x.isNegative <;> rw [sign] at word
  · exact .inl word.symm
  · exact .inr word.symm

end Binary64

namespace SparseVector

/-- The indices of a vector are known by where it stores something. -/
theorem indices_eq_of_isSome {u v : SparseVector} (same : ∀ i, (u.get? i).isSome = (v.get? i).isSome) :
    u.indices = v.indices := by
  refine List.Pairwise.eq_of_mem_iff u.ascending_indices v.ascending_indices fun {i} => ?_
  rw [mem_indices, mem_indices, ← Option.isSome_iff_exists, ← Option.isSome_iff_exists, same]

end SparseVector

namespace MergeRule

/-! ## Merging twice -/

@[simp] theorem keepValue_keepValue (dropZeros : Bool) (value? : Option Binary64) :
    keepValue dropZeros (keepValue dropZeros value?) = keepValue dropZeros value? := by
  rw [keepValue, keepValue, Option.filter_filter]
  simp

/-- Replacing composes: the later override counts, and behind it the earlier one. -/
theorem mergeValue_replace (base? first? second? : Option Binary64) (dropZeros : Bool) :
    keepValue dropZeros (replace.mergeValue (keepValue dropZeros (replace.mergeValue base? first?)) second?) =
      keepValue dropZeros (replace.mergeValue base? (replace.mergeValue first? second?)) := by
  cases second? with
  | none => exact keepValue_keepValue ..
  | some w => rfl

theorem isSome_mergeValue (rule : MergeRule) (base? change? : Option Binary64) :
    (rule.mergeValue base? change?).isSome = (base?.isSome || change?.isSome) := by
  cases change? with
  | none => exact (Bool.or_false _).symm
  | some w => exact (Bool.or_true _).symm

/-- **Overrides that replace can be merged one after another or first with each other**, and those that add up are stored at
the same indices either way. -/
theorem mergeSparse_composes :
    (∀ (base first second : SparseVector) (dropZeros : Bool),
      replace.mergeSparse (replace.mergeSparse base first dropZeros) second dropZeros =
        replace.mergeSparse base (replace.mergeSparse first second false) dropZeros) ∧
    ∀ base first second : SparseVector,
      (add.mergeSparse (add.mergeSparse base first false) second false).dim =
        (add.mergeSparse base (add.mergeSparse first second false) false).dim ∧
      (add.mergeSparse (add.mergeSparse base first false) second false).indices =
        (add.mergeSparse base (add.mergeSparse first second false) false).indices := by
  have dim : ∀ (rule : MergeRule) (base first second : SparseVector) (drop₁ drop₂ drop₃ drop₄ : Bool),
      (rule.mergeSparse (rule.mergeSparse base first drop₁) second drop₂).dim =
        (rule.mergeSparse base (rule.mergeSparse first second drop₃) drop₄).dim :=
    fun _ _ _ _ _ _ _ _ => Nat.max_assoc ..
  refine ⟨fun base first second dropZeros => SparseVector.ext_get? (dim ..) fun i => ?_, fun base first second =>
    ⟨dim .., SparseVector.indices_eq_of_isSome fun i => ?_⟩⟩
  · simp only [get?_mergeSparse, keepValue_false]
    exact mergeValue_replace ..
  · simp only [get?_mergeSparse, keepValue_false, isSome_mergeValue]
    exact Bool.or_assoc ..

/-! ## Merging into an array -/

/-- A positive zero in the place of any zero, if zeros are dropped. -/
def dropped (dropZeros : Bool) (x : Binary64) : Binary64 := if dropZeros && x.isZero then 0 else x

/-- **A merged vector, expanded over zeros, is what merging into an array leaves**, but for the sign of dropped zeros. -/
theorem fill_mergeSparse (rule : MergeRule) {base changes : SparseVector} (same : base.dim = changes.dim)
    (dropZeros : Bool) : (rule.mergeSparse base changes dropZeros).fill 0 =
      (rule.scatter (base.fill 0) changes.entries).map (dropped dropZeros) := by
  refine Array.ext_getElem? fun i => ?_
  have dim : (rule.mergeSparse base changes dropZeros).dim = base.dim := by
    rw [dim_mergeSparse, same, Nat.max_self]
  have changed : lookup changes.entries i = changes.get? i := rfl
  rw [SparseVector.fill_getElem?, dim, get?_mergeSparse, Array.getElem?_map,
    rule.scatter_getElem? changes.isLine.ascending, SparseVector.fill_getElem?, changed]
  by_cases inside : i < base.dim
  · rw [if_pos inside, if_pos inside]
    refine congrArg some ?_
    have filtered : ∀ v : Binary64, (keepValue dropZeros (some v)).getD 0 = dropped dropZeros v := fun v => by
      rw [keepValue, Option.filter_some, dropped]
      cases dropZeros && v.isZero <;> rfl
    cases hc : changes.get? i with
    | some w => exact filtered _
    | none =>
      cases base.get? i with
      | some v => exact filtered v
      | none =>
        -- nothing is stored, and the array holds the zero that it was filled with
        show (0 : Binary64) = dropped dropZeros 0
        rw [dropped, ite_self]
  · rw [if_neg inside, if_neg inside]
    rfl

/-- A sparse result, expanded over zeros, against a dense one: they are equal, except that where zeros are dropped a
negative zero may be read as a positive one. -/
structure Agrees (dropZeros : Bool) (expanded dense : Array Binary64) : Prop where
  size : expanded.size = dense.size
  exact : dropZeros = false → expanded = dense
  value : ∀ (i : Nat) (x y : Binary64), expanded[i]? = some x → dense[i]? = some y → x = y ∨ dropZeros = true ∧ y = -0 ∧ x = 0

theorem agrees_map_dropped (dropZeros : Bool) (dense : Array Binary64) :
    Agrees dropZeros (dense.map (dropped dropZeros)) dense where
  size := Array.size_map
  exact keep := by
    have same : ∀ x, dropped dropZeros x = x := fun x => by rw [dropped, keep, Bool.false_and]; rfl
    rw [funext same, Array.map_id']
  value i x y hx hy := by
    rw [Array.getElem?_map, hy, Option.map_some, Option.some.injEq, dropped] at hx
    by_cases zero : (dropZeros && y.isZero) = true
    · rw [if_pos zero] at hx
      obtain ⟨drop, zero⟩ := Bool.and_eq_true_iff.1 zero
      rcases Binary64.eq_zero_or_neg_zero zero with rfl | rfl
      · exact .inl hx.symm
      · exact .inr ⟨drop, rfl, hx.symm⟩
    · rw [if_neg zero] at hx
      exact .inl hx.symm

theorem expand_eq_ok (v : SparseVector) (default : Binary64) : v.expand default v.dim = .ok (v.fill default) := by
  have length : checkLength .vectorDim v.dim v.dim = .ok () := checkLength_eq_ok.2 rfl
  rw [SparseVector.expand, length]
  rfl

/-- What two vectors merge to can be expanded to the length of the array, and agrees with it. -/
theorem exists_expanded (rule : MergeRule) {base changes : SparseVector} (same : base.dim = changes.dim)
    (dropZeros : Bool) : ∃ expanded, (rule.mergeSparse base changes dropZeros).expand 0
      (rule.scatter (base.fill 0) changes.entries).size = .ok expanded ∧
        Agrees dropZeros expanded (rule.scatter (base.fill 0) changes.entries) := by
  have size : (rule.scatter (base.fill 0) changes.entries).size = (rule.mergeSparse base changes dropZeros).dim := by
    rw [size_scatter, SparseVector.size_fill, dim_mergeSparse, same, Nat.max_self]
  refine ⟨_, by rw [size]; exact expand_eq_ok _ 0, ?_⟩
  rw [rule.fill_mergeSparse same]
  exact agrees_map_dropped ..

/-- Merging two vectors, against merging one into the expansion of the other. -/
def VectorsAgree (rule : MergeRule) (base changes : SparseVector) : Prop :=
  ∃ dense merged, base.expand 0 base.dim = .ok dense ∧ (rule.mergeDense changes).run dense = .ok () merged ∧
    ∀ dropZeros, ∃ expanded, (rule.mergeSparse base changes dropZeros).expand 0 merged.size = .ok expanded ∧
      Agrees dropZeros expanded merged

theorem vectorsAgree (rule : MergeRule) {base changes : SparseVector} (same : base.dim = changes.dim) :
    rule.VectorsAgree base changes := by
  have length : checkLength .mergeBase changes.dim (base.fill 0).size = .ok () :=
    checkLength_eq_ok.2 (by rw [SparseVector.size_fill, same])
  refine ⟨_, rule.scatter (base.fill 0) changes.entries, expand_eq_ok base 0, ?_, rule.exists_expanded same⟩
  rw [mergeDense, run_bind_get, length, run_bind_ok (run_attempt_ok ..)]
  rfl

end MergeRule
end Multistage
