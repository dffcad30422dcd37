import Multistage.Node.Reconstruct
import Multistage.Proofs.Node
/-!
# The fields of a node, number by number

`fillField_ofOverrides` follows a number of a field all the way: from the caller's overrides through numbering,
normalizing and the patch to the buffer.  At the place of an index stands the template's value if nothing was said of
the index, and else the template's value merged with what was said last.
-/
namespace Multistage

open Sparse

variable {limit : Nat} {core : Template} {stage : Nat} {overrides : Overrides}

namespace Template

/-- A template fills a buffer of the right length with what it has. -/
theorem run_fillField {data : StageData} (f : Field) (has : core.stages[stage]? = some data)
    {buffer : Array Binary64} (fits : buffer.size = (data.fields.get f).size) :
    (core.fillField stage f).run buffer = .ok () (data.fields.get f) := by
  have found : core.stage stage = .ok data := stage_eq_ok.2 has
  have length : checkLength .copyBuffer (data.fields.get f).size buffer.size = .ok () := checkLength_eq_ok.2 fits
  simp [fillField, BufferM.copyFrom, EStateM.run_bind, found, length]

/-- A buffer of another length is refused and left as it is. -/
theorem run_fillField_misfit {data : StageData} (f : Field) (has : core.stages[stage]? = some data)
    {buffer : Array Binary64} {e : Error}
    (misfit : checkLength .copyBuffer (data.fields.get f).size buffer.size = .error e) :
    (core.fillField stage f).run buffer = .error e buffer := by
  have found : core.stage stage = .ok data := stage_eq_ok.2 has
  simp [fillField, BufferM.copyFrom, EStateM.run_bind, found, misfit]

end Template

namespace Node

/-- A scenario node scatters its own entries onto what the template has. -/
theorem run_fillField_fresh {patch : Patch} (f : Field) {buffer base : Array Binary64}
    (filled : (core.fillField stage f).run buffer = .ok () base) :
    ((patched core stage patch).fillField core f).run buffer =
      .ok () (core.options.rule.scatter base (patch.field f)) := by
  have anchor : (patched core stage patch).checkAnchor core = .ok () := if_pos rfl
  simp only [fillField, EStateM.run_bind, anchor, run_attempt_ok]
  rw [show (patched core stage patch).stage = stage from rfl, filled]
  rfl

/-- What a node keeps for the place of an index is what was last said of the index, as it is stored. -/
theorem lookup_fieldWrites (coherent : ∀ axis, (core.numbering axis).Coherent) (f : Field) {e : Nat}
    (owned : (core.numbering f.axis).stageOf[e]? = some stage) :
    lookup (fieldWrites core stage overrides f) ((core.numbering f.axis).localPlace stage e) =
      (overrides.value? f e).map (core.options.stored f) := by
  rw [fieldWrites, lookup_lastWrites]
  refine lastWrite?_filter_map (fun x _ hx => ?_) (fun x _ hx same => ?_)
  · rw [hx, owns]
    exact decide_eq_true owned
  · have hx : (core.numbering f.axis).stageOf[x.index]? = some stage := of_decide_eq_true hx
    have same : (core.numbering f.axis).localPlace stage x.index = (core.numbering f.axis).localPlace stage e := same
    rw [← (coherent f.axis).member_localPlace hx, same, (coherent f.axis).member_localPlace owned]

/-- What a buffer holds after a node's overrides of a field were merged onto the template's values.  The places of the
buffer are those of the indices that the stage owns, so nothing said of other indices or fields has any influence. -/
structure FieldMerged (core : Template) (stage : Nat) (overrides : Overrides) (f : Field)
    (base filled : Array Binary64) : Prop where
  size : filled.size = base.size
  value : ∀ e, (core.numbering f.axis).stageOf[e]? = some stage →
    ∃ v, base[(core.numbering f.axis).localPlace stage e]? = some v ∧
      filled[(core.numbering f.axis).localPlace stage e]? = some (match overrides.value? f e with
        | none => v
        | some w => core.options.rule.combine v (if f = .objective then w else core.options.normalize w))
  owner : ∀ p, p < filled.size → ∃ e, (core.numbering f.axis).stageOf[e]? = some stage ∧
    (core.numbering f.axis).localPlace stage e = p

theorem fieldMerged_scatter (built : core.WellBuilt) {data : StageData} (has : core.stages[stage]? = some data)
    {patch : Patch} (holds : HoldsOverrides core stage overrides patch) (f : Field) :
    FieldMerged core stage overrides f (data.fields.get f)
      (core.options.rule.scatter (data.fields.get f) (patch.field f)) where
  size := MergeRule.size_scatter ..
  value e owned := by
    have inside := built.size_field f has ▸ (built.coherent f.axis).localPlace_lt owned
    have stored := Array.getElem?_eq_getElem inside
    refine ⟨_, stored, ?_⟩
    rw [MergeRule.scatter_getElem? _ (holds.field f ▸ ascending_lastWrites _), stored, holds.field f,
      lookup_fieldWrites built.coherent f owned]
    cases overrides.value? f e with
    | none => rfl
    | some w =>
      dsimp only
      rw [← Options.stored_eq]
      rfl
  owner p hp := by
    rw [MergeRule.size_scatter, built.size_field f has] at hp
    have lt := built.numStages_numbering f.axis ▸ built.size_stages ▸ (Array.getElem?_eq_some_iff.1 has).1
    exact ⟨_, (built.coherent f.axis).stageOf_member lt hp, (built.coherent f.axis).localPlace_member lt hp⟩

end Node
end Multistage
