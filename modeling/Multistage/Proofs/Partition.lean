import Multistage.Partition
import Multistage.Proofs.Numbering.Passes
import Multistage.Proofs.Outcome
/-!
# The order in which a partition numbers an axis

`StageByStage` says of the five arrays of a numbering, and of nothing else, what a caller can rely on: the starts are the
running sums of the counts, the two maps undo each other, and the internal order is the external indices of the first
stage, ascending, then those of the second, and so on.  No two numberings of the same stages can differ then.

An accepted partition numbers both of its axes like that (`stageByStage_of_build`), with empty stages wherever they lie.
-/
namespace Multistage

/-- The stages of the indices of an axis. -/
def Assignment.stages (a : Assignment) : Axis → Array Nat
  | .row => a.rowStages
  | .column => a.colStages

namespace Numbering

/-- The indices of each stage take the next numbers, in external order. -/
structure StageByStage (n : Numbering) (stages : Array Nat) (numStages : Nat) : Prop where
  stageOf : n.stageOf = stages
  size_counts : n.counts.size = numStages
  size_starts : n.starts.size = numStages + 1
  starts_zero : n.starts[0]? = some 0
  starts_last : n.starts[numStages]? = some stages.size
  starts_succ : ∀ t : Nat, t < numStages → ∃ s c, n.starts[t]? = some s ∧ n.counts[t]? = some c ∧ c = stages.count t ∧
    n.starts[t + 1]? = some (s + c)
  size_toInternal : n.toInternal.size = stages.size
  size_toExternal : n.toExternal.size = stages.size
  /-- Either map takes back what the other one did. -/
  there : ∀ e : Nat, e < stages.size → ∃ i, i < stages.size ∧ n.toInternal[e]? = some i ∧ n.toExternal[i]? = some e
  back : ∀ i : Nat, i < stages.size → ∃ e, e < stages.size ∧ n.toExternal[i]? = some e ∧ n.toInternal[e]? = some i
  within : ∀ e t : Nat, stages[e]? = some t → ∃ s i s', n.starts[t]? = some s ∧ n.toInternal[e]? = some i ∧
    n.starts[t + 1]? = some s' ∧ s ≤ i ∧ i < s'
  order : n.toExternal.toList =
    (List.range numStages).flatMap fun t => (List.range stages.size).filter fun e => stages[e]? = some t

/-! ## The group of a stage -/

theorem group_eq_filter (stageOf : Array Nat) (stage : Nat) :
    group stageOf stage = (List.range stageOf.size).filter fun e => stageOf[e]? = some stage := by
  have ascending : ((List.range stageOf.size).filter fun e => stageOf[e]? = some stage).Pairwise (· < ·) :=
    List.pairwise_lt_range.filter _
  refine List.Perm.eq_of_pairwise (fun a b _ _ h k => absurd k (Nat.lt_asymm h)) (ascending_group stageOf stage)
    ascending ((List.perm_ext_iff_of_nodup ((ascending_group stageOf stage).imp Nat.ne_of_lt)
      (ascending.imp Nat.ne_of_lt)).2 fun e => ?_)
  rw [mem_group, List.mem_filter, List.mem_range, decide_eq_true_eq]
  exact ⟨fun owned => ⟨(Array.getElem?_eq_some_iff.1 owned).1, owned⟩, fun ⟨_, owned⟩ => owned⟩

theorem length_group (stageOf : Array Nat) (stage : Nat) : (group stageOf stage).length = stageOf.count stage := by
  rw [group, length_itemsAt, List.zipIdx_map_fst, Array.count_toList]

/-! ## Reading the arrays -/

namespace Coherent

variable {n : Numbering} (h : n.Coherent)
include h

theorem getElem?_starts {t : Nat} (ht : t ≤ n.numStages) : n.starts[t]? = some (n.first t) :=
  getElem?_eq_getD (h.size_starts ▸ Nat.lt_succ_of_le ht) 0

omit h in
theorem getElem?_counts {t : Nat} (ht : t < n.numStages) : n.counts[t]? = some (n.width t) :=
  getElem?_eq_getD ht 0

omit h in
theorem getElem?_toInternal {e : Nat} (he : e < n.size) : n.toInternal[e]? = some (n.place e) :=
  getElem?_eq_getD he 0

theorem getElem?_toExternal {i : Nat} (hi : i < n.size) : n.toExternal[i]? = some (n.origin i) :=
  getElem?_eq_getD (h.size_toExternal ▸ hi) 0

end Coherent

/-- **A lay-out lists stage after stage**, if every index is given a stage that exists. -/
theorem stageByStage_layOut (axis : Axis) {stages : Array Nat} {numStages : Nat}
    (bounded : ∀ t ∈ stages, t < numStages) : (layOut axis stages numStages).StageByStage stages numStages := by
  have coherent := coherent_layOut axis bounded
  have stageCount := numStages_layOut axis stages numStages
  have size := size_layOut axis bounded
  have starts : ∀ {t : Nat}, t ≤ numStages →
      (layOut axis stages numStages).starts[t]? = some ((layOut axis stages numStages).first t) :=
    fun ht => coherent.getElem?_starts (stageCount.symm ▸ ht)
  have there : ∀ {e : Nat}, e < stages.size →
      (layOut axis stages numStages).toInternal[e]? = some ((layOut axis stages numStages).place e) :=
    fun he => Coherent.getElem?_toInternal (size.symm ▸ he)
  have back : ∀ {i : Nat}, i < stages.size →
      (layOut axis stages numStages).toExternal[i]? = some ((layOut axis stages numStages).origin i) :=
    fun hi => coherent.getElem?_toExternal (size.symm ▸ hi)
  exact {
    stageOf := rfl
    size_counts := stageCount
    size_starts := by rw [coherent.size_starts, stageCount]
    starts_zero := by rw [starts (Nat.zero_le _), first_zero_layOut]
    starts_last := by rw [starts (Nat.le_refl _), first_last_layOut axis bounded]
    starts_succ := fun t ht => by
      refine ⟨_, _, starts (Nat.le_of_lt ht), Coherent.getElem?_counts (stageCount.symm ▸ ht), ?_, ?_⟩
      · rw [width_layOut axis stages numStages ht, length_group]
      · rw [starts ht, first_succ_layOut axis stages numStages ht]
    size_toInternal := size
    size_toExternal := size_toExternal_layOut axis bounded
    there := fun e he => by
      have placed := size ▸ coherent.place_lt (size.symm ▸ he)
      exact ⟨_, placed, there he, by rw [back placed, coherent.origin_place (size.symm ▸ he)]⟩
    back := fun i hi => by
      have listed := origin_lt_layOut axis bounded hi
      exact ⟨_, listed, back hi, by rw [there listed, coherent.place_origin (size.symm ▸ hi)]⟩
    within := fun e t owned => by
      have ht : t < numStages := bounded t (Array.mem_of_getElem? owned)
      have after := coherent.localPlace_lt (n := layOut axis stages numStages) owned
      rw [localPlace] at after
      refine ⟨_, _, _, starts (Nat.le_of_lt ht), there (Array.getElem?_eq_some_iff.1 owned).1, starts ht,
        coherent.first_le owned, ?_⟩
      rw [first_succ_layOut axis stages numStages ht]
      omega
    order := by
      rw [toExternal_layOut axis bounded, groups, List.flatMap_def, funext (group_eq_filter stages)] }

end Numbering

namespace Partition

theorem build_eq_ok {numRows numCols : Nat} {assignment : Assignment} {integerCols : List Nat} {p : Partition}
    (h : build numRows numCols assignment integerCols = .ok p) :
    assignment.rowStages.size = numRows ∧ assignment.colStages.size = numCols ∧
      Numbering.ofStages .row assignment.rowStages assignment.numStages = .ok p.rows ∧
      Numbering.ofStages .column assignment.colStages assignment.numStages = .ok p.cols ∧
      p.numStages = assignment.numStages ∧
      p.integerCols = integerPlaces p.cols assignment.numStages integerCols ∧ ∀ j ∈ integerCols, j < numCols := by
  simp only [build, bind_eq_ok, pure_eq_ok, checkLength_eq_ok, checkColumns_eq_ok] at h
  obtain ⟨_, rows, _, cols, r, hr, c, hc, _, inside, rfl⟩ := h
  exact ⟨rows, cols, hr, hc, rfl, rfl, inside⟩

/-- Both axes are numbered for the stages that the assignment gives them. -/
theorem numbered_of_build {numRows numCols : Nat} {assignment : Assignment} {integerCols : List Nat} {p : Partition}
    (built : build numRows numCols assignment integerCols = .ok p) : ∀ axis,
      Numbering.ofStages axis (assignment.stages axis) assignment.numStages = .ok (p.axis axis)
  | .row => (build_eq_ok built).2.2.1
  | .column => (build_eq_ok built).2.2.2.1

/-- **A partition is the stable, stage-contiguous renumbering of both axes.** -/
theorem stageByStage_of_build {numRows numCols : Nat} {assignment : Assignment} {integerCols : List Nat}
    {p : Partition} (built : build numRows numCols assignment integerCols = .ok p) :
    p.numStages = assignment.numStages ∧ p.numRows = numRows ∧ p.numCols = numCols ∧
      ∀ axis, (p.axis axis).axis = axis ∧
        (p.axis axis).StageByStage (assignment.stages axis) assignment.numStages := by
  have numbering : ∀ axis, (p.axis axis).axis = axis ∧
      (p.axis axis).StageByStage (assignment.stages axis) assignment.numStages := fun axis => by
    obtain ⟨bounded, laidOut⟩ := Numbering.ofStages_eq_ok.1 (numbered_of_build built axis)
    rw [laidOut]
    exact ⟨rfl, Numbering.stageByStage_layOut axis bounded⟩
  obtain ⟨rows, cols, -, -, numStages, -⟩ := build_eq_ok built
  exact ⟨numStages, (numbering .row).2.size_toInternal.trans rows, (numbering .column).2.size_toInternal.trans cols,
    numbering⟩

/-- Rows of two stages out of five, in turns; a stage in front of them, one between and one behind are empty. -/
theorem stageByStage_withEmptyStages : ∃ p, build 4 3 ⟨5, #[3, 1, 3, 1], #[4, 1, 1]⟩ [1, 0, 1] = .ok p ∧
    (p.numStages = 5 ∧ p.numRows = 4 ∧ p.numCols = 3 ∧ ∀ axis, (p.axis axis).axis = axis ∧
      (p.axis axis).StageByStage (Assignment.stages ⟨5, #[3, 1, 3, 1], #[4, 1, 1]⟩ axis) 5) := by
  obtain ⟨p, built⟩ := exists_of_isOk
    (show (build 4 3 ⟨5, #[3, 1, 3, 1], #[4, 1, 1]⟩ [1, 0, 1]).isOk = true by decide +kernel)
  exact ⟨p, built, stageByStage_of_build built⟩

end Partition
end Multistage
