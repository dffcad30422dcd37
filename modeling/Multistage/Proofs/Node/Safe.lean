import Multistage.Proofs.Node.Canonical
import Multistage.Proofs.Node.Core
/-!
# Nothing that a node stores can be out of place

What a scenario node stores is not checked again when it is used: slices are taken by its starts, and its entries are
written where their indices say.  `WellStored` says why that is safe, for every node that a template makes from
overrides (`MadeBy`), whatever rows it has kept since.  Where stored data is still passed to something that checks it,
the check succeeds (`Answers`), and a template that the node does not belong to is refused before the data is looked at
(`Refuses`).
-/
namespace Multistage

open Sparse

/-! ## Slices -/

/-- A part is a slice that lies within the items. -/
theorem Parts.exists_slice {α : Type} (p : Parts α) {i : Nat} (h : i < p.count) :
    ∃ s t, p.starts[i]? = some s ∧ p.starts[i + 1]? = some t ∧ s ≤ t ∧ t ≤ p.items.size ∧
      p.part i = (p.items.extract s t).toList := by
  have size := p.size_starts
  have start : ∀ j, j ≤ p.count → p.starts[j]? = some (p.start j) := fun j hj => by
    rw [Parts.start, Array.getD_eq_getD_getElem?, Array.getElem?_eq_getElem (by omega), Option.getD_some]
  exact ⟨p.start i, p.start (i + 1), start i (Nat.le_of_lt h), start (i + 1) h, p.start_mono (Nat.le_succ i) h,
    p.start_le_size _, rfl⟩

/-- A patch is cut into so many rows, and the fields; all slices lie within it, and each of them is a line. -/
structure Patch.InOrder (p : Patch) (rows cols : Nat) (extent : Axis → Nat) : Prop where
  numRows : p.numRows = rows
  first : p.parts.starts[0]? = some 0
  size : p.parts.starts.size = rows + 6
  slice : ∀ i, i < rows + 5 → ∃ s t, p.parts.starts[i]? = some s ∧ p.parts.starts[i + 1]? = some t ∧ s ≤ t ∧
    t ≤ p.parts.items.size ∧ p.parts.part i = (p.parts.items.extract s t).toList
  row : ∀ i, i < rows → IsLine cols (p.row i)
  field : ∀ f, IsLine (extent f.axis) (p.field f)

/-- A buffer that a template has filled holds the template's values. -/
theorem Template.filled_eq {core : Template} {stage : Nat} {data : StageData} {f : Field}
    (has : core.stages[stage]? = some data) {buffer base : Array Binary64}
    (filled : (core.fillField stage f).run buffer = .ok () base) : base = data.fields.get f := by
  cases length : checkLength .copyBuffer (data.fields.get f).size buffer.size with
  | ok u =>
    rw [run_fillField f has (checkLength_eq_ok.1 length)] at filled
    exact (EStateM.Result.ok.inj filled).2.symm
  | error e =>
    rw [run_fillField_misfit f has length] at filled
    cases filled

namespace Node

/-- The nodes that a template makes, whatever rows they have kept since. -/
inductive MadeBy (limit : Nat) (core : Template) : Node → Prop
  | core {stage} (lt : stage < core.numStages) (rows : Std.TreeMap Nat (Array Binary64)) :
      MadeBy limit core { fresh core stage .core with denseRows := rows }
  | scenario {stage overrides node tally} (accepted : ofOverridesBy limit core stage overrides = .ok (node, tally))
      (rows : Std.TreeMap Nat (Array Binary64)) : MadeBy limit core { node with denseRows := rows }

variable {limit : Nat} {core : Template} {stage : Nat} {overrides : Overrides} {patch : Patch} {n : Node}

theorem extent_fresh (content : Content) (axis : Axis) :
    (fresh core stage content).extent axis = (core.numbering axis).width stage := by
  cases axis <;> rfl

theorem inOrder_of_holds (built : core.WellBuilt) (inRange : InRange core overrides)
    (holds : HoldsOverrides core stage overrides patch) : patch.InOrder ((core.numbering .row).width stage) core.numCols
      (patched core stage patch).extent where
  numRows := holds.numRows
  first := patch.parts.first
  size := by rw [patch.parts.size_starts, patch.count, holds.numRows]
  slice i hi := patch.parts.exists_slice (by rw [patch.count, holds.numRows]; exact hi)
  row i hi := holds.isLine_row built inRange (holds.numRows.symm ▸ hi)
  field f := by
    rw [extent_fresh]
    exact holds.isLine_field built f

theorem MadeBy.keep (made : n.MadeBy limit core) (rows : Std.TreeMap Nat (Array Binary64)) :
    ({ n with denseRows := rows } : Node).MadeBy limit core := by
  cases made with
  | core lt => exact .core lt rows
  | scenario accepted => exact .scenario accepted rows

/-- A node of a template has the template's columns. -/
theorem MadeBy.numCols (built : core.WellBuilt) (made : n.MadeBy limit core) : n.numCols = core.numCols := by
  cases made with
  | core => rfl
  | scenario accepted =>
    obtain ⟨-, -, patch, rfl, -⟩ := ofOverrides_eq_ok built accepted
    rfl

/-- What is stored by a node can be used as it stands. -/
structure WellStored (core : Template) (n : Node) (patch : Patch) : Prop where
  content : n.content = .scenario patch
  count : ∀ axis, (core.numbering axis).count n.stage = .ok (n.extent axis)
  numCols : n.numCols = core.numCols
  inOrder : patch.InOrder n.rowCount n.numCols n.extent
  fieldOverrides : ∀ f, ∃ v, n.fieldOverrides f = .ok (some v) ∧ v.dim = n.extent f.axis ∧ v.entries = patch.field f
  /-- The entries of a field are written into a buffer that the template has filled. -/
  fillField : ∀ f buffer base, (core.fillField n.stage f).run buffer = .ok () base →
    ∀ e ∈ patch.field f, e.index < base.size
  mergeSparse : ∀ row base, row < n.rowCount → ∃ v, n.mergeSparse row base = .ok v ∧ v.dim = max base.dim n.numCols ∧
    IsLine v.dim v.entries ∧ ∀ e ∈ patch.row row, e.index < v.dim
  /-- The entries of a row are written into a buffer whose length was checked. -/
  mergeDense : ∀ row buffer, row < n.rowCount → buffer.size = n.numCols →
    (n.mergeDense row).run buffer = .ok () (n.rule.scatter buffer (patch.row row)) ∧
      ∀ e ∈ patch.row row, e.index < buffer.size

/-- What is asked of a node, with its own template and within its bounds, is answered. -/
structure Answers (core : Template) (n : Node) : Prop where
  fieldOverrides : ∀ f, ∃ v?, n.fieldOverrides f = .ok v?
  fillField : ∀ f buffer, buffer.size = n.extent f.axis → ∃ filled, (n.fillField core f).run buffer = .ok () filled
  storedRow : ∀ row, row < n.rowCount → ∃ v, n.storedRow core row = .ok v ∧ v.dim = core.numCols
  denseRow : ∀ row, row < n.rowCount → ∃ dense m, (denseRow core row).run n = .ok dense m
  mergedRow : ∀ row, row < n.rowCount → ∃ v, n.mergedRow core row = .ok v ∧ v.dim = core.numCols
  mergedMatrix : ∃ m, n.mergedMatrix core = .ok m

/-- What is asked of a node with another template is refused. -/
structure Refuses (other : Template) (n : Node) : Prop where
  fillField : ∀ f buffer, (n.fillField other f).run buffer = .error (.foreignTemplate n.template other.id) buffer
  storedRow : ∀ row, n.storedRow other row = .error (.foreignTemplate n.template other.id)
  storedSize : n.storedSize other = .error (.foreignTemplate n.template other.id)
  denseRow : ∀ row, (denseRow other row).run n = .error (.foreignTemplate n.template other.id) n
  mergedRow : ∀ row, n.mergedRow other row = .error (.foreignTemplate n.template other.id)
  mergedMatrix : n.mergedMatrix other = .error (.foreignTemplate n.template other.id)

theorem refuses_of_ne {other : Template} (foreign : other.id ≠ n.template) : n.Refuses other := by
  have anchor : n.checkAnchor other = .error (.foreignTemplate n.template other.id) := if_neg foreign
  exact {
    fillField := fun f buffer => by rw [Node.fillField, anchor, run_bind_error (run_attempt_error ..)]
    storedRow := fun row => by rw [Node.storedRow, anchor]; rfl
    storedSize := by rw [Node.storedSize, anchor]; rfl
    denseRow := fun row => by rw [Node.denseRow, run_bind_get, anchor, run_bind_error (run_attempt_error ..)]
    mergedRow := fun row => by rw [Node.mergedRow, anchor]; rfl
    mergedMatrix := by rw [Node.mergedMatrix, anchor]; rfl }

/-- A row that a node does not have is refused, but not before the template is looked at. -/
theorem storedRow_beyond (own : core.id = n.template) {row : Nat} (beyond : n.rowCount ≤ row) :
    n.storedRow core row = .error (.indexOutOfRange .row row n.rowCount) := by
  have anchor : n.checkAnchor core = .ok () := if_pos own
  have outside : n.checkRow row = .error (.indexOutOfRange .row row n.rowCount) := if_neg (Nat.not_lt.2 beyond)
  rw [storedRow, anchor, outside]
  rfl

/-! ## What is stored -/

theorem WellStored.keep (h : WellStored core n patch) (rows : Std.TreeMap Nat (Array Binary64)) :
    WellStored core { n with denseRows := rows } patch :=
  ⟨h.content, h.count, h.numCols, h.inOrder, h.fieldOverrides, h.fillField, h.mergeSparse, h.mergeDense⟩

theorem wellStored_patched (built : core.WellBuilt) (lt : stage < core.numStages) (inRange : InRange core overrides)
    (holds : HoldsOverrides core stage overrides patch) : WellStored core (patched core stage patch) patch := by
  have inOrder := inOrder_of_holds built inRange holds
  exact {
    content := rfl
    count := fun axis => Numbering.count_eq_ok.2 ⟨built.numStages_numbering axis ▸ lt, (extent_fresh _ axis).symm⟩
    numCols := rfl
    inOrder
    fieldOverrides := fun f => by
      have checked : SparseVector.ofEntries? ((patched core stage patch).extent f.axis) (patch.field f) =
        .ok ⟨_, patch.field f, inOrder.field f⟩ := SparseVector.ofEntries?_eq_ok.2 ⟨rfl, rfl⟩
      refine ⟨⟨_, patch.field f, inOrder.field f⟩, ?_, rfl, rfl⟩
      show Except.map some (Except.mapError _ _) = _
      rw [mapError_eq_ok.2 checked]
      rfl
    fillField := fun f buffer base filled e he => by
      obtain ⟨data, has⟩ := built.exists_stage lt
      rw [Template.filled_eq has filled, built.size_field f has, ← extent_fresh (.scenario patch)]
      exact (inOrder.field f).bounded e he
    mergeSparse := fun i base hi => by
      have line := inOrder.row i hi
      exact ⟨_, mergeSparse_patched hi line base, rfl, (MergeRule.mergeSparse ..).isLine,
        fun e he => Nat.lt_of_lt_of_le (line.bounded e he) (Nat.le_max_right ..)⟩
    mergeDense := fun i buffer hi fits => by
      have length : checkLength .coreRow (patched core stage patch).numCols buffer.size = .ok () :=
        checkLength_eq_ok.2 fits
      refine ⟨?_, fun e he => fits ▸ (inOrder.row i hi).bounded e he⟩
      rw [mergeDense, ownRow_patched hi, run_bind_ok (run_attempt_ok ..), run_bind_get, length,
        run_bind_ok (run_attempt_ok ..)]
      rfl }

/-! ## What is answered -/

theorem exists_denseRow {row : Nat} {v : SparseVector} (stored : n.storedRow core row = .ok v) :
    ∃ dense m, (denseRow core row).run n = .ok dense m := by
  obtain ⟨⟨⟩, anchor, -⟩ := bind_eq_ok.1 stored
  rw [denseRow, run_bind_get, anchor, run_bind_ok (run_attempt_ok ..)]
  cases n.denseRows[row]? with
  | some dense => exact ⟨dense, n, rfl⟩
  | none =>
    rw [stored]
    exact ⟨_, _, rfl⟩

theorem Answers.keep (h : Answers core n) (rows : Std.TreeMap Nat (Array Binary64)) :
    Answers core { n with denseRows := rows } where
  fieldOverrides := h.fieldOverrides
  fillField := h.fillField
  storedRow := h.storedRow
  denseRow row lt := by
    obtain ⟨v, stored, -⟩ := h.storedRow row lt
    exact exists_denseRow (n := { n with denseRows := rows }) stored
  mergedRow := h.mergedRow
  mergedMatrix := h.mergedMatrix

theorem answers_core (built : core.WellBuilt) (lt : stage < core.numStages) :
    Answers core (fresh core stage .core) := by
  obtain ⟨data, has⟩ := built.exists_stage lt
  have stands : StandsFor core stage (fresh core stage .core) :=
    standsFor_core has rfl rfl (built.numRows_matrix has).symm (faithful_fresh core stage .core)
  have row : ∀ i, i < (core.numbering .row).width stage →
      core.row stage i = .ok (data.matrix.vector i) ∧ (data.matrix.vector i).dim = core.numCols := fun i hi =>
    ⟨Template.row_eq has (built.numRows_matrix has ▸ hi), built.width_matrix has⟩
  have storedRow : ∀ i, i < (core.numbering .row).width stage →
      ∃ v, (fresh core stage .core).storedRow core i = .ok v ∧ v.dim = core.numCols := fun i hi =>
    ⟨_, (stands.storedRow i).trans (row i hi).1, (row i hi).2⟩
  exact {
    fieldOverrides := fun f => ⟨none, rfl⟩
    fillField := fun f buffer fits => by
      rw [stands.fillField]
      exact ⟨_, Template.run_fillField f has (by rw [fits, extent_fresh, built.size_field f has])⟩
    storedRow
    denseRow := fun i hi => exists_denseRow (storedRow i hi).choose_spec.1
    mergedRow := fun i hi => ⟨_, (stands.mergedRow i).trans (row i hi).1, (row i hi).2⟩
    mergedMatrix := ⟨_, stands.mergedMatrix.trans (Template.matrix_eq has)⟩ }

theorem answers_patched (built : core.WellBuilt) (lt : stage < core.numStages) (inRange : InRange core overrides)
    (holds : HoldsOverrides core stage overrides patch) : Answers core (patched core stage patch) := by
  obtain ⟨data, has⟩ := built.exists_stage lt
  have stored := wellStored_patched built lt inRange holds
  have line : ∀ i, i < (core.numbering .row).width stage → IsLine core.numCols (patch.row i) := stored.inOrder.row
  have storedRow : ∀ i, i < (core.numbering .row).width stage →
      ∃ v, (patched core stage patch).storedRow core i = .ok v ∧ v.dim = core.numCols := fun i hi =>
    ⟨_, storedRow_patched hi (line i hi), rfl⟩
  exact {
    fieldOverrides := fun f => (stored.fieldOverrides f).imp' _ fun v found => found.1
    fillField := fun f buffer fits => ⟨_, run_fillField_fresh f (Template.run_fillField f has (by
      rw [fits, extent_fresh, built.size_field f has]))⟩
    storedRow
    denseRow := fun i hi => exists_denseRow (storedRow i hi).choose_spec.1
    mergedRow := fun i hi =>
      ⟨_, mergedRow_fresh has hi (built.numRows_matrix has ▸ hi) (line i hi), by
        show max data.matrix.width core.numCols = _
        rw [built.width_matrix has, Nat.max_self]⟩
    mergedMatrix := (exists_mergedMatrix built inRange has holds).imp fun m assembled => assembled.1 }

/-- **A node that a template makes can be used with the template**, and what it stores can be used as it stands. -/
theorem safe_of_madeBy (built : core.WellBuilt) (made : MadeBy limit core n) :
    n.template = core.id ∧ Answers core n ∧ (n.isCore = false → ∃ patch, WellStored core n patch) := by
  cases made with
  | core lt rows => exact ⟨rfl, (answers_core built lt).keep rows, fun own => by cases own⟩
  | scenario accepted rows =>
    obtain ⟨lt, inRange, patch, rfl, holds⟩ := ofOverrides_eq_ok built accepted
    exact ⟨rfl, (answers_patched built lt inRange holds).keep rows,
      fun _ => ⟨patch, (wellStored_patched built lt inRange holds).keep rows⟩⟩

end Node
end Multistage
