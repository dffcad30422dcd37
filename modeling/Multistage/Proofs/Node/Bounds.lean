import Multistage.Proofs.Binary64
import Multistage.Proofs.Node.Core
import Multistage.Proofs.Node.Field
/-!
# The bounds of a node

Bounds are normalized where they are stored: the template's when it is built, a node's when the node is.  Of that a
solver gets to see what merging leaves.  Under `replace` a merged bound is one of the two, and under `add` a sum
with an infinity is an infinity; but the sum of two finite bounds is not normalized again, and opposed infinities
add up to a NaN (`Bound`, `bounds_fillField`, `sums_outOfRange`).
-/
namespace Multistage

open Binary64

/-- A number above zero, or the positive infinity. -/
def Binary64.Positive (x : Binary64) : Prop := x.isNaN = false ∧ 0 < x.position

instance (x : Binary64) : Decidable x.Positive := inferInstanceAs (Decidable (_ ∧ _))

namespace Options

variable {o : Options} {x : Binary64}

/-- Normalizing neither makes a NaN nor removes one. -/
theorem isNaN_normalize (o : Options) (x : Binary64) : (o.normalize x).isNaN = x.isNaN := by
  unfold normalize
  split
  · rename_i above
    exact above.2.1.symm
  · split
    · rename_i below
      exact below.1.symm
    · rfl

theorem normalize_nan (nan : x.isNaN = true) : o.normalize x = x := by
  have above : ¬ o.infinity ≤ x := fun le => Bool.false_ne_true (le.2.1.symm.trans nan)
  have below : ¬ x ≤ -o.infinity := fun le => Bool.false_ne_true (le.1.symm.trans nan)
  rw [normalize, if_neg above, if_neg below]

theorem normalize_negInf (positive : o.infinity.Positive) : o.normalize .negInf = .negInf := by
  have above : ¬ o.infinity ≤ .negInf := fun le => by
    have least : Binary64.negInf.position = -infinityMagnitude := by decide
    have above := positive.2
    have below := le.2.2
    omega
  rw [normalize, if_neg above]
  split <;> rfl

/-- Infinities and NaNs are normalized. -/
theorem normalize_of_not_finite (positive : o.infinity.Positive) (infinite : x.isFinite = false) :
    o.normalize x = x := by
  cases nan : x.isNaN with
  | true => exact normalize_nan nan
  | false =>
    obtain rfl | rfl := eq_posInf_or_negInf infinite nan
    · exact o.normalize_posInf positive.1
    · exact normalize_negInf positive

/-- A bound as a solver takes it: none that is finite lies at or beyond the program's infinity. -/
structure InRange (o : Options) (x : Binary64) : Prop where
  normalized : o.normalize x = x
  below : x.isFinite = true → ¬ o.infinity ≤ x
  above : x.isFinite = true → ¬ x ≤ -o.infinity

theorem inRange_of_normalized (normalized : o.normalize x = x) : o.InRange x where
  normalized
  below finite le := by
    rw [normalize, if_pos le] at normalized
    subst normalized
    cases finite
  above finite le := by
    by_cases large : o.infinity ≤ x
    · rw [normalize, if_pos large] at normalized
      subst normalized
      cases finite
    · rw [normalize, if_neg large, if_pos le] at normalized
      subst normalized
      cases finite

end Options

namespace Node

/-- A bound of a node, for the bound in the snapshot and the last override of it. -/
structure Bound (o : Options) (bound : Binary64) (override : Option Binary64) (v : Binary64) : Prop where
  value : v = match override with
    | none => o.normalize bound
    | some w => o.rule.combine (o.normalize bound) (o.normalize w)
  /-- Only the sum of two finite bounds may be out of range. -/
  inRange : o.InRange v ∨ o.rule = .add ∧ ∃ w, override = some w ∧ (o.normalize bound).isFinite = true ∧
    (o.normalize w).isFinite = true
  number : v.isNaN = true → bound.isNaN = true ∨ ∃ w, override = some w ∧
    (w.isNaN = true ∨ o.rule = .add ∧ Opposed (o.normalize bound) (o.normalize w))

variable {o : Options} {bound : Binary64}

theorem bound_normalized (o : Options) (bound : Binary64) : Bound o bound none (o.normalize bound) where
  value := rfl
  inRange := .inl (Options.inRange_of_normalized (o.normalize_normalize bound))
  number nan := .inl (o.isNaN_normalize bound ▸ nan)

theorem bound_combined (positive : o.infinity.Positive) (bound w : Binary64) :
    Bound o bound (some w) (o.rule.combine (o.normalize bound) (o.normalize w)) where
  value := rfl
  inRange := by
    cases rule : o.rule with
    | replace => exact .inl (Options.inRange_of_normalized (o.normalize_normalize w))
    | add =>
      show o.InRange (o.normalize bound + o.normalize w) ∨ _
      cases finite : (o.normalize bound + o.normalize w).isFinite with
      | false => exact .inl (Options.inRange_of_normalized (Options.normalize_of_not_finite positive finite))
      | true =>
        obtain ⟨hbound, hw⟩ := isFinite_of_add finite
        exact .inr ⟨rfl, w, rfl, hbound, hw⟩
  number nan := by
    cases rule : o.rule with
    | replace =>
      rw [rule] at nan
      exact .inr ⟨w, rfl, .inl (o.isNaN_normalize w ▸ nan)⟩
    | add =>
      rw [rule] at nan
      obtain hbound | hw | opposed := isNaN_add.1 nan
      · exact .inl (o.isNaN_normalize bound ▸ hbound)
      · exact .inr ⟨w, rfl, .inl (o.isNaN_normalize w ▸ hw)⟩
      · exact .inr ⟨w, rfl, .inr ⟨rfl, opposed⟩⟩

/-- The nodes of a stage with the overrides that they were given, of which a core node has none, whatever rows they have
kept since. -/
inductive Made (core : Template) (stage : Nat) : Overrides → Node → Prop
  | core {node} (made : Node.core core stage = .ok node) (rows : Std.TreeMap Nat (Array Binary64)) :
      Made core stage {} { node with denseRows := rows }
  | scenario {limit overrides node tally} (made : ofOverridesBy limit core stage overrides = .ok (node, tally))
      (rows : Std.TreeMap Nat (Array Binary64)) : Made core stage overrides { node with denseRows := rows }

variable {core : Template} {stage : Nat} {overrides : Overrides} {node : Node} {f : Field}

/-- A node fills a buffer with the template's field, merged with what was last said of each place. -/
theorem run_fillField_made {data : StageData} (built : core.WellBuilt) (made : Made core stage overrides node)
    (has : core.stages[stage]? = some data) {buffer : Array Binary64} (fits : buffer.size = (data.fields.get f).size) :
    ∃ filled, (node.fillField core f).run buffer = .ok () filled ∧ filled.size = buffer.size ∧
      ∀ p x, (data.fields.get f)[p]? = some x →
        filled[p]? = some (match overrides.value? f ((core.numbering f.axis).member stage p) with
          | none => x
          | some w => core.options.rule.combine x (if f = .objective then w else core.options.normalize w)) := by
  have base := Template.run_fillField f has fits
  cases made with
  | core made =>
    obtain ⟨-, rfl⟩ := (anchored_eq_ok built).1 made
    have stands := standsFor_core (n := fresh core stage .core) has rfl rfl (built.numRows_matrix has).symm
      (faithful_fresh core stage .core)
    refine ⟨_, (stands.fillField f buffer).trans base, fits.symm, fun p x at? => ?_⟩
    have unsaid : ∀ e, ({} : Overrides).value? f e = none := fun e => by cases f <;> rfl
    rw [unsaid]
    exact at?
  | scenario made =>
    obtain ⟨-, -, patch, rfl, holds⟩ := ofOverrides_eq_ok built made
    have merged := fieldMerged_scatter built has holds f
    refine ⟨_, run_fillField_fresh f base, merged.size.trans fits.symm, fun p x at? => ?_⟩
    have lt := built.numStages_numbering f.axis ▸ built.size_stages ▸ (Array.getElem?_eq_some_iff.1 has).1
    have inside : p < (core.numbering f.axis).width stage :=
      built.size_field f has ▸ (Array.getElem?_eq_some_iff.1 at?).1
    obtain ⟨v, stored, filled⟩ := merged.value _ ((built.coherent f.axis).stageOf_member lt inside)
    rw [(built.coherent f.axis).localPlace_member lt inside] at stored filled
    rwa [Option.some.inj (at?.symm.trans stored)]

/-- **Every bound that a node hands out is in range, unless it is the sum of two finite ones.** -/
theorem bounds_fillField {id : TemplateId} {snapshot : Snapshot} {assignment : Assignment} {options : Options}
    (positive : options.infinity.Positive) (built : Template.build id snapshot assignment options = .ok core)
    (made : Made core stage overrides node) (isBound : f.isBound = true) (buffer : Array Binary64)
    (fits : (core.numbering f.axis).count stage = .ok buffer.size) :
    ∃ filled, (node.fillField core f).run buffer = .ok () filled ∧ filled.size = buffer.size ∧
      ∀ p v, filled[p]? = some v → ∃ x,
        (snapshot.fields.get f)[(core.numbering f.axis).member stage p]? = some x ∧
          Bound options x (overrides.value? f ((core.numbering f.axis).member stage p)) v := by
  have well := Template.wellBuilt_of_build built
  obtain ⟨-, sameOptions, -⟩ := Template.build_eq_ok built
  obtain ⟨lt, width⟩ := Numbering.count_eq_ok.1 fits
  obtain ⟨data, has⟩ := well.exists_stage (well.numStages_numbering f.axis ▸ lt)
  have size : buffer.size = (data.fields.get f).size := width.symm.trans (well.size_field f has).symm
  have normal : ∀ x, (if f = .objective then x else options.normalize x) = options.normalize x :=
    fun x => if_neg (by rintro rfl; cases isBound)
  obtain ⟨filled, ran, filledSize, value⟩ := run_fillField_made well made has size
  refine ⟨filled, ran, filledSize, fun p v at? => ?_⟩
  have inside : p < (data.fields.get f).size := by
    rw [← size, ← filledSize]
    exact (Array.getElem?_eq_some_iff.1 at?).1
  obtain ⟨x, given, stored⟩ := (Template.stageCut_of_build built has).value f p inside
  refine ⟨x, given, ?_⟩
  have merged := Option.some.inj (at?.symm.trans (value p _ stored))
  rw [sameOptions, normal] at merged
  subst merged
  cases overrides.value? f ((core.numbering f.axis).member stage p) with
  | none => exact bound_normalized options x
  | some w =>
    show Bound options x (some w) (options.rule.combine (options.normalize x)
      (if f = .objective then w else options.normalize w))
    rw [normal]
    exact bound_combined positive x w

/-- The small program under `add`: what is said of the stage's columns is added to an infinity and to zeros. -/
theorem bounds_interleaved : ∃ core node tally, ({ rule := .add } : Options).infinity.Positive ∧
    Template.build ⟨0⟩ interleaved interleavedStages { rule := .add } = .ok core ∧
    ofOverrides core 1 interleavedOverrides = .ok (node, tally) ∧ Made core 1 interleavedOverrides node ∧
    Field.colUpper.isBound = true ∧
    (core.numbering Field.colUpper.axis).count 1 = .ok (#[0, 0] : Array Binary64).size ∧
    ∃ filled, (node.fillField core .colUpper).run #[0, 0] = .ok () filled ∧
      filled.size = (#[0, 0] : Array Binary64).size ∧
      ∀ p v, filled[p]? = some v → ∃ x,
        (interleaved.fields.get .colUpper)[(core.numbering Field.colUpper.axis).member 1 p]? = some x ∧
          Bound { rule := .add } x
            (interleavedOverrides.value? .colUpper ((core.numbering Field.colUpper.axis).member 1 p)) v := by
  have positive : ({ rule := .add } : Options).infinity.Positive := by decide
  obtain ⟨core, built⟩ := exists_of_isOk
    (show (Template.build ⟨0⟩ interleaved interleavedStages { rule := .add }).isOk = true by decide +kernel)
  have accepted : ((Template.build ⟨0⟩ interleaved interleavedStages { rule := .add }).bind fun core =>
      ofOverrides core 1 interleavedOverrides).isOk = true := by decide +kernel
  have counts : (Template.build ⟨0⟩ interleaved interleavedStages { rule := .add }).toOption.all fun core =>
      decide ((core.numbering Field.colUpper.axis).counts[1]? = some 2) := by decide +kernel
  rw [built] at accepted counts
  obtain ⟨⟨node, tally⟩, made⟩ := exists_of_isOk accepted
  have made' : Made core 1 interleavedOverrides node := .scenario made node.denseRows
  have fits : (core.numbering Field.colUpper.axis).count 1 = .ok (#[0, 0] : Array Binary64).size := by
    rw [Numbering.count, of_decide_eq_true counts]
    rfl
  exact ⟨core, node, tally, positive, built, made, made', rfl, fits,
    bounds_fillField positive built made' rfl #[0, 0] fits⟩

def cappedOverrides : Overrides :=
  (({} : Overrides).set .colUpper 0 ⟨0x461e4ad1785a42b2⟩).set .colUpper 1 .negInf

/-- Twice `6e29` stays finite though it is beyond the program's infinity, and opposed infinities add up to a NaN. -/
theorem sums_outOfRange : ∃ core node tally,
    Template.build ⟨0⟩ (columnsOnly #[⟨0x461e4ad1785a42b2⟩, .posInf]) (oneStage 2) { rule := .add } = .ok core ∧
    ofOverrides core 0 cappedOverrides = .ok (node, tally) ∧
    (node.fillField core .colUpper).run #[0, 0] = .ok () #[⟨0x462e4ad1785a42b2⟩, .nan] ∧
    ({ rule := .add } : Options).normalize ⟨0x462e4ad1785a42b2⟩ ≠ ⟨0x462e4ad1785a42b2⟩ ∧ nan.isNaN = true ∧
    (∀ x ∈ (columnsOnly #[⟨0x461e4ad1785a42b2⟩, .posInf]).fields.get .colUpper, x.isNaN = false) ∧
    ∀ e ∈ cappedOverrides.fields.get .colUpper, e.value.isNaN = false := by
  obtain ⟨core, built⟩ := exists_of_isOk (show (Template.build ⟨0⟩ (columnsOnly #[⟨0x461e4ad1785a42b2⟩, .posInf])
    (oneStage 2) { rule := .add }).isOk = true by decide +kernel)
  have accepted : ((Template.build ⟨0⟩ (columnsOnly #[⟨0x461e4ad1785a42b2⟩, .posInf]) (oneStage 2)
      { rule := .add }).bind fun core => ofOverrides core 0 cappedOverrides).isOk = true := by decide +kernel
  have outcome : (Template.build ⟨0⟩ (columnsOnly #[⟨0x461e4ad1785a42b2⟩, .posInf]) (oneStage 2)
      { rule := .add }).toOption.all fun core => (ofOverrides core 0 cappedOverrides).toOption.all fun made =>
        decide ((answered (made.1.fillField core .colUpper) #[0, 0]).isOk = true ∧
          stateAfter (made.1.fillField core .colUpper) #[0, 0] = #[⟨0x462e4ad1785a42b2⟩, .nan]) := by decide +kernel
  rw [built] at accepted outcome
  obtain ⟨⟨node, tally⟩, made⟩ := exists_of_isOk accepted
  replace made : ofOverrides core 0 cappedOverrides = .ok (node, tally) := made
  replace outcome : (ofOverrides core 0 cappedOverrides).toOption.all _ = true := outcome
  rw [made] at outcome
  obtain ⟨answer, filled⟩ := of_decide_eq_true outcome
  obtain ⟨⟨⟩, answer⟩ := exists_of_isOk answer
  exact ⟨core, node, tally, built, made, run_eq_ok answer filled, by decide, by decide, by decide, by decide⟩

end Node
end Multistage
