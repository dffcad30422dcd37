import Mathlib.Logic.Relation
import Multistage.Proofs.Arena.Interning
import Multistage.Proofs.Node.Field
import Multistage.Proofs.Node.Matrix
import Multistage.Proofs.Template.Cut
/-!
# A patch is a canonical form of the overrides

Two lists of overrides lead to equal patches exactly if they say the same last, of every cell in a row of the stage and of
every index of the stage, as it is stored (`SameLastWrites`).  One direction is that nothing else of the overrides gets into
a patch, the other that nothing of this is lost: local places tell the indices of a stage apart, and what is stored for an
index can be looked up.

Saying the same in other words (`Rewording`) leaves what was said last as it is, and so the node, and with it the handle that
interning answers.
-/
namespace Multistage

open Sparse

/-! ## Saying the same in other words -/

section Rewording

variable {α β κ : Type}

/-- One way to say the same of the places that matter. -/
inductive Rewording (place : α → κ) (mine : κ → Prop) (say : α → β) : List α → List α → Prop where
  | reordered {x y : α} {l : List α} (apart : place x ≠ place y) : Rewording place mine say (x :: y :: l) (y :: x :: l)
  | superseded {x y : α} {l : List α} (later : y ∈ l) (same : place x = place y) : Rewording place mine say l (x :: l)
  | foreign {x : α} {l : List α} (other : ¬ mine (place x)) : Rewording place mine say l (x :: l)
  | respelled {x y : α} {l : List α} (same : place x = place y) (alike : say x = say y) :
      Rewording place mine say (x :: l) (y :: l)
  | behind (x : α) {k l : List α} (rest : Rewording place mine say k l) : Rewording place mine say (x :: k) (x :: l)

/-- What was said last of a place. -/
def lastAt [DecidableEq κ] (place : α → κ) (say : α → β) (k : κ) (l : List α) : Option β :=
  (l.reverse.find? fun x => place x = k).map say

variable [DecidableEq κ] {place : α → κ} {mine : κ → Prop} {say : α → β} {k : κ}

theorem lastAt_cons (x : α) (l : List α) :
    lastAt place say k (x :: l) = (lastAt place say k l).or (if place x = k then some (say x) else none) := by
  rw [lastAt, lastAt, List.reverse_cons, List.find?_append, Option.map_or]
  by_cases h : place x = k <;> simp [h]

theorem exists_lastAt {x : α} {l : List α} (hx : x ∈ l) (h : place x = k) : ∃ v, lastAt place say k l = some v := by
  have found : (l.reverse.find? fun x => place x = k).isSome = true :=
    List.find?_isSome.2 ⟨x, List.mem_reverse.2 hx, decide_eq_true h⟩
  obtain ⟨y, hy⟩ := Option.isSome_iff_exists.1 found
  exact ⟨say y, by rw [lastAt, hy]; rfl⟩

/-- **Other words leave what was said last as it is.** -/
theorem Rewording.lastAt_eq {l l' : List α} (h : Rewording place mine say l l') (own : mine k) :
    lastAt place say k l = lastAt place say k l' := by
  induction h with
  | @reordered x y l apart =>
    simp only [lastAt_cons]
    by_cases hx : place x = k
    · have hy : place y ≠ k := fun hy => apart (hx.trans hy.symm)
      simp [hx, hy]
    · simp [hx]
  | @superseded x y l later same =>
    rw [lastAt_cons]
    by_cases hx : place x = k
    · obtain ⟨v, said⟩ : ∃ v, lastAt place say k l = some v := exists_lastAt later (same.symm.trans hx)
      rw [said, Option.some_or]
    · rw [if_neg hx, Option.or_none]
  | @foreign x l other =>
    have hx : place x ≠ k := fun hx => other (hx.symm ▸ own)
    rw [lastAt_cons, if_neg hx, Option.or_none]
  | @respelled x y l same alike => rw [lastAt_cons, lastAt_cons, same, alike]
  | behind x _ ih => rw [lastAt_cons, lastAt_cons, ih]

end Rewording

namespace Node

variable {limit : Nat} {core : Template} {stage : Nat} {o₁ o₂ : Overrides}

def position (c : Matrix.Cell) : Nat × Nat := (c.row, c.col)

/-- Overrides of the matrix or of one field are said in other words. -/
inductive Reworded (core : Template) (stage : Nat) : Overrides → Overrides → Prop where
  | matrix {o : Overrides} {cells : List Matrix.Cell} (said : Rewording position
      (fun p => (core.numbering .row).stageOf[p.1]? = some stage) Matrix.Cell.value o.matrix cells) :
      Reworded core stage o { o with matrix := cells }
  | field {o : Overrides} (f : Field) {entries : List Entry} (said : Rewording Entry.index
      (fun e => (core.numbering f.axis).stageOf[e]? = some stage) (fun e => core.options.stored f e.value)
      (o.fields.get f) entries) : Reworded core stage o { o with fields := o.fields.update f fun _ => entries }

/-- Overrides say the same last of a stage: the same value of every cell in a row of the stage, and a value stored alike
of every index of the stage. -/
structure SameLastWrites (core : Template) (stage : Nat) (o₁ o₂ : Overrides) : Prop where
  cell : ∀ row col, (core.numbering .row).stageOf[row]? = some stage → o₁.cell? row col = o₂.cell? row col
  value : ∀ f e, (core.numbering f.axis).stageOf[e]? = some stage →
    (o₁.value? f e).map (core.options.stored f) = (o₂.value? f e).map (core.options.stored f)

theorem cell?_eq_lastAt (o : Overrides) (row col : Nat) :
    o.cell? row col = lastAt position Matrix.Cell.value (row, col) o.matrix := by
  simp only [Overrides.cell?, lastAt, position, Prod.mk.injEq]

theorem value?_eq_lastAt (o : Overrides) (f : Field) (e : Nat) : (o.value? f e).map (core.options.stored f) =
    lastAt Entry.index (fun e => core.options.stored f e.value) e (o.fields.get f) := by
  rw [Overrides.value?, lastWrite?, lookup, lastAt, Option.map_map]
  rfl

theorem Reworded.sameLastWrites (h : Reworded core stage o₁ o₂) : SameLastWrites core stage o₁ o₂ := by
  cases h with
  | matrix said =>
    refine ⟨fun row col owned => ?_, fun _ _ _ => rfl⟩
    rw [cell?_eq_lastAt, cell?_eq_lastAt]
    exact said.lastAt_eq owned
  | field f said =>
    refine ⟨fun _ _ _ => rfl, fun g e owned => ?_⟩
    rw [value?_eq_lastAt, value?_eq_lastAt, FieldTable.get_update]
    by_cases same : g = f
    · subst same
      rw [if_pos rfl]
      exact said.lastAt_eq owned
    · rw [if_neg same]

/-- However often overrides are reworded, back and forth, they say the same. -/
theorem sameLastWrites_of_eqvGen (h : Relation.EqvGen (Reworded core stage) o₁ o₂) : SameLastWrites core stage o₁ o₂ := by
  induction h with
  | rel _ _ once => exact once.sameLastWrites
  | refl _ => exact ⟨fun _ _ _ => rfl, fun _ _ _ => rfl⟩
  | symm _ _ _ ih => exact ⟨fun row col owned => (ih.cell row col owned).symm, fun f e owned => (ih.value f e owned).symm⟩
  | trans _ _ _ _ _ ih₁ ih₂ =>
    exact ⟨fun row col owned => (ih₁.cell row col owned).trans (ih₂.cell row col owned),
      fun f e owned => (ih₁.value f e owned).trans (ih₂.value f e owned)⟩

/-! ## What is stored and what was said -/

theorem InRange.cell?_eq_none (inRange : InRange core o₁) {row col : Nat} (beyond : core.numCols ≤ col) :
    o₁.cell? row col = none := by
  rw [Overrides.cell?, Option.map_eq_none_iff, List.find?_eq_none]
  intro c hc same
  have := inRange.cols c (List.mem_reverse.1 hc)
  have : c.row = row ∧ c.col = col := of_decide_eq_true same
  omega

/-- The entries of a node's field stand at places of the stage. -/
theorem isLine_fieldWrites (coherent : ∀ axis, (core.numbering axis).Coherent) (f : Field) :
    IsLine ((core.numbering f.axis).width stage) (fieldWrites core stage o₁ f) := by
  refine ⟨ascending_lastWrites _, fun e he => ?_⟩
  obtain ⟨d, hd, rfl⟩ := List.mem_map.1 (mem_of_mem_lastWrites he)
  exact (coherent f.axis).localPlace_lt (of_decide_eq_true (List.mem_filter.1 hd).2)

theorem HoldsOverrides.isLine_row {patch : Patch} (holds : HoldsOverrides core stage o₁ patch) (well : core.WellBuilt)
    (inRange : InRange core o₁) {i : Nat} (hi : i < patch.numRows) : IsLine core.numCols (patch.row i) :=
  holds.row hi ▸ isLine_rowWrites well inRange i

theorem HoldsOverrides.isLine_field {patch : Patch} (holds : HoldsOverrides core stage o₁ patch) (well : core.WellBuilt)
    (f : Field) : IsLine ((core.numbering f.axis).width stage) (patch.field f) :=
  holds.field f ▸ isLine_fieldWrites well.coherent f

section Canonical

variable (well : core.WellBuilt) (lt : stage < core.numStages)
include well lt

/-- Rows are stored alike exactly if the same was said last of their cells. -/
theorem rowWrites_eq_iff (in₁ : InRange core o₁) (in₂ : InRange core o₂) :
    (∀ i, i < (core.numbering .row).width stage → rowWrites core stage o₁ i = rowWrites core stage o₂ i) ↔
      ∀ row col, (core.numbering .row).stageOf[row]? = some stage → o₁.cell? row col = o₂.cell? row col := by
  have rows := well.coherent .row
  have cols := well.coherent .column
  constructor
  · intro same row col owned
    rcases Nat.lt_or_ge col core.numCols with hcol | beyond
    · have hi := rows.localPlace_lt owned
      have lookups := congrArg (lookup · ((core.numbering .column).place col)) (same _ hi)
      simpa only [lookup_rowWrites well in₁ lt hi (cols.place_lt hcol),
        lookup_rowWrites well in₂ lt hi (cols.place_lt hcol), rows.member_localPlace owned, cols.origin_place hcol]
        using lookups
    · -- accepted overrides say nothing of a column that does not exist
      rw [in₁.cell?_eq_none beyond, in₂.cell?_eq_none beyond]
  · intro same i hi
    have line₁ : IsLine core.numCols (rowWrites core stage o₁ i) := isLine_rowWrites well in₁ i
    have line₂ : IsLine core.numCols (rowWrites core stage o₂ i) := isLine_rowWrites well in₂ i
    refine line₁.ascending.ext line₂.ascending fun j => ?_
    rcases Nat.lt_or_ge j core.numCols with hj | beyond
    · rw [lookup_rowWrites well in₁ lt hi hj, lookup_rowWrites well in₂ lt hi hj]
      exact same _ _ (rows.stageOf_member (well.numStages_numbering .row ▸ lt) hi)
    · rw [line₁.lookup_eq_none beyond, line₂.lookup_eq_none beyond]

/-- A field is stored alike exactly if values stored alike were said last of its indices. -/
theorem fieldWrites_eq_iff (f : Field) : fieldWrites core stage o₁ f = fieldWrites core stage o₂ f ↔
    ∀ e, (core.numbering f.axis).stageOf[e]? = some stage →
      (o₁.value? f e).map (core.options.stored f) = (o₂.value? f e).map (core.options.stored f) := by
  have coherent := well.coherent f.axis
  have lt := well.numStages_numbering f.axis ▸ lt
  constructor
  · intro same e owned
    rw [← lookup_fieldWrites well.coherent f owned, same, lookup_fieldWrites well.coherent f owned]
  · intro same
    have isLine : ∀ o, IsLine ((core.numbering f.axis).width stage) (fieldWrites core stage o f) :=
      fun o => isLine_fieldWrites well.coherent f
    refine (isLine o₁).ascending.ext (isLine o₂).ascending fun p => ?_
    rcases Nat.lt_or_ge p ((core.numbering f.axis).width stage) with hp | beyond
    · have owned := coherent.stageOf_member lt hp
      rw [← coherent.localPlace_member lt hp, lookup_fieldWrites well.coherent f owned,
        lookup_fieldWrites well.coherent f owned, same _ owned]
    · rw [(isLine o₁).lookup_eq_none beyond, (isLine o₂).lookup_eq_none beyond]

theorem patch_eq_iff {p₁ p₂ : Patch} (in₁ : InRange core o₁) (in₂ : InRange core o₂)
    (holds₁ : HoldsOverrides core stage o₁ p₁) (holds₂ : HoldsOverrides core stage o₂ p₂) :
    p₁ = p₂ ↔ SameLastWrites core stage o₁ o₂ := by
  have numRows : p₁.numRows = p₂.numRows := holds₁.numRows.trans holds₂.numRows.symm
  constructor
  · rintro rfl
    refine ⟨(rowWrites_eq_iff well lt in₁ in₂).1 fun i hi => ?_, fun f => (fieldWrites_eq_iff well lt f).1 ?_⟩
    · have hi := holds₁.numRows ▸ hi
      rw [← holds₁.row hi, ← holds₂.row hi]
    · rw [← holds₁.field f, ← holds₂.field f]
  · intro same
    refine Patch.ext_read numRows (fun i hi => ?_) fun f => ?_
    · rw [holds₁.row hi, holds₂.row (numRows ▸ hi)]
      exact (rowWrites_eq_iff well lt in₁ in₂).2 same.cell i (holds₁.numRows ▸ hi)
    · rw [holds₁.field f, holds₂.field f]
      exact (fieldWrites_eq_iff well lt f).2 (same.value f)

end Canonical

/-! ## Both directions -/

/-- What two lists of overrides of a stage are turned into tells whether they say the same last, and nothing else. -/
structure Canonical (limit : Nat) (core : Template) (stage : Nat) (o₁ o₂ : Overrides) (n₁ n₂ : Node) : Prop where
  patch : ∃ p₁ p₂, n₁.patch? = some p₁ ∧ n₂.patch? = some p₂ ∧ (p₁ = p₂ ↔ SameLastWrites core stage o₁ o₂)
  reworded : Relation.EqvGen (Reworded core stage) o₁ o₂ → SameLastWrites core stage o₁ o₂
  /-- Interning either of two that say the same does the same to an arena, and answers the same handle. -/
  interned : SameLastWrites core stage o₁ o₂ → ∀ (hash : Patch → UInt64) (a : Arena) (k : TemplateId),
    a.template k = .ok core → ∃ id t₁ t₂ b, (Arena.internNodeBy ⟨hash, limit⟩ k stage o₁).run a = .ok (id, t₁) b ∧
      (Arena.internNodeBy ⟨hash, limit⟩ k stage o₂).run a = .ok (id, t₂) b
  /-- Interned one after the other they are given one handle exactly if they say the same. -/
  together : ∀ (hash : Patch → UInt64) (calls : List Call) (k : TemplateId),
    (Arena.after ⟨hash, limit⟩ calls).template k = .ok core → ∃ id₁ id₂ t₁ t₂ b c,
      (Arena.internNodeBy ⟨hash, limit⟩ k stage o₁).run (Arena.after ⟨hash, limit⟩ calls) = .ok (id₁, t₁) b ∧
        (Arena.internNodeBy ⟨hash, limit⟩ k stage o₂).run b = .ok (id₂, t₂) c ∧ (id₁ = id₂ ↔ SameLastWrites core stage o₁ o₂)

/-- **A patch is a canonical form of the overrides that it was built from.** -/
theorem canonical_ofOverrides {id : TemplateId} {snapshot : Snapshot} {assignment : Assignment} {options : Options}
    {n₁ n₂ : Node} {t₁ t₂ : Tally} (built : Template.build id snapshot assignment options = .ok core)
    (accepted₁ : ofOverridesBy limit core stage o₁ = .ok (n₁, t₁))
    (accepted₂ : ofOverridesBy limit core stage o₂ = .ok (n₂, t₂)) :
    Canonical limit core stage o₁ o₂ n₁ n₂ := by
  have well := Template.wellBuilt_of_build built
  obtain ⟨lt, in₁, p₁, rfl, holds₁⟩ := ofOverrides_eq_ok well accepted₁
  obtain ⟨-, in₂, p₂, rfl, holds₂⟩ := ofOverrides_eq_ok well accepted₂
  have same := patch_eq_iff well lt in₁ in₂ holds₁ holds₂
  refine ⟨⟨p₁, p₂, rfl, rfl, same⟩, sameLastWrites_of_eqvGen, fun said hash a k found => ?_, fun hash calls k found => ?_⟩
  · obtain rfl : p₁ = p₂ := same.2 said
    obtain ⟨handle, b, ran⟩ := Arena.exists_interned ⟨hash, limit⟩ a (patched core stage p₁)
    have found := Arena.template_eq_ok.1 found
    exact ⟨handle, t₁, t₂, b, ran found accepted₁, ran found accepted₂⟩
  · obtain ⟨id₁, id₂, b, c, ran₁, ran₂, meet⟩ :=
      (Arena.sound_after calls).interned_eq_iff (Arena.template_eq_ok.1 found) accepted₁ accepted₂
    refine ⟨id₁, id₂, t₁, t₂, b, c, ran₁, ran₂, meet.trans (Iff.trans ⟨fun h => ?_, fun h => ?_⟩ same)⟩
    · exact Content.scenario.inj (congrArg Node.content h)
    · rw [h]

/-- The overrides of the small program in fewer words: what was replaced or is another stage's is left out, the cells are
in another order, and the bound beyond infinity is infinite. -/
def interleavedInShort : Overrides where
  matrix := [⟨0, 2, 0⟩, ⟨0, 1, .posInf⟩]
  fields := (FieldTable.ofFn fun _ => []).update .colUpper fun _ => [⟨0, .posInf⟩, ⟨2, .negInf⟩]

theorem eqvGen_interleaved {id : TemplateId} (built : Template.build id interleaved interleavedStages {} = .ok core) :
    Relation.EqvGen (Reworded core 1) interleavedInShort interleavedOverrides := by
  obtain ⟨rows, -⟩ := Template.numbering_of_build built .row
  obtain ⟨cols, -⟩ := Template.numbering_of_build built .column
  have otherRow : ¬ (core.numbering .row).stageOf[1]? = some 1 := by rw [rows]; decide
  have otherCol : ¬ (core.numbering .column).stageOf[1]? = some 1 := by rw [cols]; decide
  have infinite : core.options.stored .colUpper .posInf = core.options.stored .colUpper ⟨0x7fe0000000000000⟩ := by
    rw [(Template.build_eq_ok built).2.1]; decide
  have matrix : ∀ {fields : FieldTable (List Entry)} {k l : List Matrix.Cell}, Rewording position
      (fun p => (core.numbering .row).stageOf[p.1]? = some 1) Matrix.Cell.value k l →
      Relation.EqvGen (Reworded core 1) ⟨k, fields⟩ ⟨l, fields⟩ := fun said => .rel _ _ (.matrix said)
  have upper : ∀ {cells : List Matrix.Cell} {k l : List Entry}, Rewording Entry.index
      (fun e => (core.numbering .column).stageOf[e]? = some 1) (fun e => core.options.stored .colUpper e.value) k l →
      Relation.EqvGen (Reworded core 1) ⟨cells, (FieldTable.ofFn fun _ => []).update .colUpper fun _ => k⟩
        ⟨cells, (FieldTable.ofFn fun _ => []).update .colUpper fun _ => l⟩ :=
    fun said => .rel _ _ (.field .colUpper said)
  refine .trans _ _ _ (matrix (l := [⟨0, 1, .posInf⟩, ⟨0, 2, 0⟩]) (.reordered (by decide))) ?_
  refine .trans _ _ _ (matrix (l := [⟨0, 1, .posInf⟩, ⟨1, 0, .nan⟩, ⟨0, 2, 0⟩]) (.behind _ (.foreign otherRow))) ?_
  refine .trans _ _ _ (matrix (l := [⟨0, 1, .posInf⟩, ⟨0, 2, .negInf⟩, ⟨1, 0, .nan⟩, ⟨0, 2, 0⟩])
    (.behind _ (.superseded (y := ⟨0, 2, 0⟩) (by decide) rfl))) ?_
  refine .trans _ _ _ (upper (l := [⟨0, ⟨0x7fe0000000000000⟩⟩, ⟨2, .negInf⟩]) (.respelled rfl infinite)) ?_
  refine .trans _ _ _ (upper (l := [⟨2, 0⟩, ⟨0, ⟨0x7fe0000000000000⟩⟩, ⟨2, .negInf⟩])
    (.superseded (y := ⟨2, .negInf⟩) (by decide) rfl)) ?_
  exact upper (.behind _ (.behind _ (.behind _ (.foreign otherCol))))

/-- The overrides of the small program, and the same in fewer words. -/
theorem canonical_interleaved : ∃ core n₁ n₂ t₁ t₂,
    Template.build ⟨0⟩ interleaved interleavedStages {} = .ok core ∧
      ofOverrides core 1 interleavedInShort = .ok (n₁, t₁) ∧ ofOverrides core 1 interleavedOverrides = .ok (n₂, t₂) ∧
      Relation.EqvGen (Reworded core 1) interleavedInShort interleavedOverrides ∧
      Canonical RowWriter.addressable core 1 interleavedInShort interleavedOverrides n₁ n₂ := by
  obtain ⟨core, n₂, t₂, built, accepted₂⟩ := exists_interleaved
  have accepted : ((Template.build ⟨0⟩ interleaved interleavedStages {}).bind fun core =>
      ofOverrides core 1 interleavedInShort).isOk = true := by decide +kernel
  rw [built] at accepted
  obtain ⟨⟨n₁, t₁⟩, accepted₁⟩ := exists_of_isOk accepted
  exact ⟨core, n₁, n₂, t₁, t₂, built, accepted₁, accepted₂, eqvGen_interleaved built,
    canonical_ofOverrides built accepted₁ accepted₂⟩

end Node
end Multistage
