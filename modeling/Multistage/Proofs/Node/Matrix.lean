import Multistage.Node.Reconstruct
import Multistage.Proofs.Merge
import Multistage.Proofs.Node
/-!
# The matrix of a node, cell by cell

`mergedMatrix_ofOverrides` follows a matrix cell all the way: from the caller's overrides through the numbering of both
axes and the rows of the patch to the assembled matrix.  Assembling never fails, because every row is in order and
in bounds before it is checked.
-/
namespace Multistage

open Sparse

variable {limit : Nat} {core : Template} {stage : Nat} {overrides : Overrides}

/-- The last cell of a list at a row and a column is found in the group of the row at the place of the column. -/
theorem lookup_itemsAt {α : Type} {keep : α → Bool} {line : α → Nat} {entry : α → Entry} {i j : Nat} {p : α → Bool}
    {cells : List α} (same : ∀ c ∈ cells, p c = true ↔ keep c = true ∧ line c = i ∧ (entry c).index = j) :
    lookup (itemsAt i ((cells.filter keep).map fun c => (line c, entry c))) j =
      (cells.find? p).map fun c => (entry c).value := by
  induction cells with
  | nil => rfl
  | cons c cells ih =>
    have ih := ih fun d hd => same d (List.mem_cons_of_mem _ hd)
    have same := same c (List.mem_cons_self ..)
    by_cases hk : keep c = true
    · rw [List.filter_cons_of_pos hk, List.map_cons, itemsAt_cons]
      by_cases hi : line c = i
      · rw [if_pos hi, lookup_cons]
        by_cases hj : (entry c).index = j
        · rw [if_pos hj, List.find?_cons_of_pos (same.2 ⟨hk, hi, hj⟩)]
          rfl
        · rw [if_neg hj, List.find?_cons_of_neg fun hp => hj (same.1 hp).2.2]
          exact ih
      · rw [if_neg hi, List.find?_cons_of_neg fun hp => hi (same.1 hp).2.1]
        exact ih
    · rw [List.filter_cons_of_neg hk, List.find?_cons_of_neg fun hp => hk (same.1 hp).1]
      exact ih

namespace Node

/-- The entries of a node's row stand at columns that exist. -/
theorem isLine_rowWrites (built : core.WellBuilt) (inRange : InRange core overrides) (i : Nat) :
    IsLine core.numCols (rowWrites core stage overrides i) := by
  refine ⟨ascending_lastWrites _, fun e he => ?_⟩
  have he := mem_itemsAt.1 (mem_of_mem_lastWrites he)
  obtain ⟨c, hc, heq⟩ := List.mem_map.1 he
  obtain ⟨-, rfl⟩ := Prod.mk.inj heq
  exact (built.coherent .column).place_lt (inRange.cols c (List.mem_filter.1 hc).1)

/-- What a node keeps for a cell is what was last said of it. -/
theorem lookup_rowWrites (built : core.WellBuilt) (inRange : InRange core overrides) (lt : stage < core.numStages)
    {i j : Nat} (hi : i < (core.numbering .row).width stage) (hj : j < core.numCols) :
    lookup (rowWrites core stage overrides i) j =
      overrides.cell? ((core.numbering .row).member stage i) ((core.numbering .column).origin j) := by
  have rows := built.coherent .row
  have cols := built.coherent .column
  have lt := built.numStages_numbering .row ▸ lt
  rw [rowWrites, lookup_lastWrites, lastWrite?, ← itemsAt_reverse, ownCells, ← List.map_reverse,
    ← List.filter_reverse, Overrides.cell?]
  refine lookup_itemsAt fun c hc => ?_
  have hc := inRange.cols c (List.mem_reverse.1 hc)
  simp only [decide_eq_true_eq, owns]
  constructor
  · rintro ⟨hr, hcol⟩
    rw [hr, hcol]
    exact ⟨rows.stageOf_member lt hi, rows.localPlace_member lt hi, cols.place_origin hj⟩
  · rintro ⟨owned, place, col⟩
    exact ⟨(rows.member_localPlace owned).symm.trans (congrArg _ place),
      (cols.origin_place hc).symm.trans (congrArg _ col)⟩

theorem asRow_of_isLine {n : Node} {entries : List Entry} (line : IsLine n.numCols entries) :
    n.asRow entries = .ok ⟨n.numCols, entries, line⟩ := mapError_eq_ok.2 (SparseVector.ofEntries?_eq_ok.2 ⟨rfl, rfl⟩)

section Rows

variable {patch : Patch} {i : Nat} (hi : i < (core.numbering .row).width stage)
include hi

theorem ownRow_patched : (patched core stage patch).ownRow i = .ok (patch.row i) :=
  bind_eq_ok.2 ⟨(), checkIndex_eq_ok.2 hi, rfl⟩

theorem mergeSparse_patched (line : IsLine core.numCols (patch.row i)) (base : SparseVector) :
    (patched core stage patch).mergeSparse i base = .ok (core.options.rule.mergeSparse base
      ⟨core.numCols, patch.row i, line⟩ core.options.dropZeros) := by
  have own : (patched core stage patch).asRow (patch.row i) = .ok _ := asRow_of_isLine line
  exact bind_eq_ok.2 ⟨_, ownRow_patched hi, bind_eq_ok.2 ⟨_, own, rfl⟩⟩

theorem storedRow_patched (line : IsLine core.numCols (patch.row i)) :
    (patched core stage patch).storedRow core i = .ok ⟨core.numCols, patch.row i, line⟩ := by
  have anchor : (patched core stage patch).checkAnchor core = .ok () := if_pos rfl
  have inside : (patched core stage patch).checkRow i = .ok () := checkIndex_eq_ok.2 hi
  have own : (patched core stage patch).asRow (patch.row i) = .ok _ := asRow_of_isLine line
  exact bind_eq_ok.2 ⟨(), anchor, bind_eq_ok.2 ⟨(), inside, own⟩⟩

end Rows

theorem mergedRow_fresh {data : StageData} (has : core.stages[stage]? = some data) {patch : Patch} {i : Nat}
    (hi : i < (core.numbering .row).width stage) (hd : i < data.matrix.numRows)
    (line : IsLine core.numCols (patch.row i)) :
    (patched core stage patch).mergedRow core i = .ok (core.options.rule.mergeSparse
      (data.matrix.vector i) ⟨core.numCols, patch.row i, line⟩ core.options.dropZeros) := by
  have anchor : (patched core stage patch).checkAnchor core = .ok () := if_pos rfl
  have base : core.row (patched core stage patch).stage i = .ok (data.matrix.vector i) :=
    Template.row_eq has hd
  exact bind_eq_ok.2 ⟨(), anchor, bind_eq_ok.2 ⟨_, base, mergeSparse_patched hi line _⟩⟩

theorem mergedMatrix_fresh {patch : Patch}
    (rows : ∀ i, i < (core.numbering .row).width stage →
      ∃ row, (patched core stage patch).mergedRow core i = .ok row ∧ row.dim = core.numCols) :
    ∃ m, (patched core stage patch).mergedMatrix core = .ok m ∧ m.order = .byRow ∧
      m.width = core.numCols ∧ m.lines.size = (core.numbering .row).width stage ∧
      ∀ i row, (patched core stage patch).mergedRow core i = .ok row →
        i < (core.numbering .row).width stage → m.line i = row.entries := by
  obtain ⟨vectors, all⟩ := exists_mapM_eq_ok
    (f := (patched core stage patch).mergedRow core)
    (l := List.range ((core.numbering .row).width stage)) fun i hi =>
      (rows i (List.mem_range.1 hi)).imp fun _ h => h.1
  obtain ⟨length, each⟩ := mapM_eq_ok.1 all
  rw [List.length_range] at length
  have found : ∀ i row, (patched core stage patch).mergedRow core i = .ok row →
      i < (core.numbering .row).width stage → vectors[i]? = some row := fun i row hrow hi => by
    obtain ⟨row', hr', hrow'⟩ := each i i (List.getElem?_range hi)
    rw [hr', Except.ok.inj (hrow'.symm.trans hrow)]
  have isLine : ∀ l ∈ (vectors.map (·.entries)).toArray, IsLine core.numCols l := fun l hl => by
    obtain ⟨v, hv, rfl⟩ := List.mem_map.1 (List.mem_toArray.1 hl)
    obtain ⟨i, hi, rfl⟩ := List.getElem_of_mem hv
    obtain ⟨row, hrow, dim⟩ := rows i (length ▸ hi)
    have same := found i row hrow (length ▸ hi)
    rw [List.getElem?_eq_getElem hi, Option.some.injEq] at same
    rw [same, ← dim]
    exact row.isLine
  refine ⟨⟨.byRow, core.numCols, (vectors.map (·.entries)).toArray, isLine⟩, ?_, rfl, rfl, by simpa using length,
    fun i row hrow hi => ?_⟩
  · have anchor : (patched core stage patch).checkAnchor core = .ok () := if_pos rfl
    have assembled : (Matrix.ofLines? .byRow core.numCols (vectors.map (·.entries)).toArray).mapError
        Error.malformed = .ok ⟨.byRow, core.numCols, (vectors.map (·.entries)).toArray, isLine⟩ :=
      mapError_eq_ok.2 (Matrix.ofLines?_eq_ok.2 ⟨rfl, rfl, rfl⟩)
    exact bind_eq_ok.2 ⟨(), anchor, bind_eq_ok.2 ⟨vectors, all, assembled⟩⟩
  · rw [Matrix.line, Array.getD_eq_getD_getElem?, List.getElem?_toArray, List.getElem?_map, found i row hrow hi]
    rfl

/-- What the matrix of a node holds.  Its rows are those of the stage, so nothing said of a row of another stage has
any influence; its columns are those of all stages. -/
structure MatrixMerged (core : Template) (stage : Nat) (overrides : Overrides) (node : Node)
    (base merged : Matrix) : Prop where
  order : merged.order = .byRow
  numRows : (core.numbering .row).count stage = .ok merged.numRows
  numCols : merged.numCols = core.numCols
  row : ∀ i, i < merged.numRows → ∃ row, node.mergedRow core i = .ok row ∧ row.dim = core.numCols ∧
    row.entries = merged.line i ∧ Ascending row.entries
  value : ∀ i j, i < merged.numRows → j < merged.numCols → merged.get? i j =
    MergeRule.keepValue core.options.dropZeros (core.options.rule.mergeValue (base.get? i j)
      (overrides.cell? ((core.numbering .row).member stage i) ((core.numbering .column).origin j)))
  beyond : ∀ i j, merged.numCols ≤ j → merged.get? i j = none
  owned : ∀ i, i < merged.numRows →
    (core.numbering .row).stageOf[(core.numbering .row).member stage i]? = some stage

/-- A cell of a merged row holds the template's value, merged with what was last said of the cell. -/
theorem get?_mergedRow (built : core.WellBuilt) (inRange : InRange core overrides) {data : StageData}
    (has : core.stages[stage]? = some data) {patch : Patch} (holds : HoldsOverrides core stage overrides patch)
    {i j : Nat} (hi : i < (core.numbering .row).width stage) (hj : j < core.numCols)
    (line : IsLine core.numCols (patch.row i)) :
    (core.options.rule.mergeSparse (data.matrix.vector i) ⟨core.numCols, patch.row i, line⟩
      core.options.dropZeros).get? j =
      MergeRule.keepValue core.options.dropZeros (core.options.rule.mergeValue (data.matrix.get? i j)
        (overrides.cell? ((core.numbering .row).member stage i) ((core.numbering .column).origin j))) := by
  have lt : stage < core.numStages := built.size_stages ▸ (Array.getElem?_eq_some_iff.1 has).1
  have own : (⟨core.numCols, patch.row i, line⟩ : SparseVector).get? j = _ :=
    holds.row (holds.numRows.symm ▸ hi) ▸ lookup_rowWrites built inRange lt hi hj
  have base : (data.matrix.vector i).get? j = data.matrix.get? i j := by
    rw [Matrix.get?, built.order_matrix has]
    rfl
  rw [core.options.rule.get?_mergeSparse, own, base]

theorem dims_of_byRow {m : Matrix} (order : m.order = .byRow) :
    m.numRows = m.lines.size ∧ m.numCols = m.width ∧ ∀ i j, m.get? i j = lookup (m.line i) j := by
  refine ⟨by rw [Matrix.numRows, order], by rw [Matrix.numCols, order], fun i j => by rw [Matrix.get?, order]⟩

/-- The matrix of a scenario node is assembled, and its cells are merged one by one. -/
theorem exists_mergedMatrix (built : core.WellBuilt) (inRange : InRange core overrides) {data : StageData}
    (has : core.stages[stage]? = some data) {patch : Patch} (holds : HoldsOverrides core stage overrides patch) :
    ∃ m, (patched core stage patch).mergedMatrix core = .ok m ∧ m.order = .byRow ∧
      m.numRows = (core.numbering .row).width stage ∧ m.numCols = core.numCols ∧
      ∀ i j, i < m.numRows → j < m.numCols → m.get? i j =
        MergeRule.keepValue core.options.dropZeros (core.options.rule.mergeValue (data.matrix.get? i j)
          (overrides.cell? ((core.numbering .row).member stage i) ((core.numbering .column).origin j))) := by
  have line : ∀ i, i < (core.numbering .row).width stage → IsLine core.numCols (patch.row i) := fun i hi =>
    holds.row (holds.numRows.symm ▸ hi) ▸ isLine_rowWrites built inRange i
  have row := fun i (hi : i < (core.numbering .row).width stage) =>
    mergedRow_fresh has hi ((built.numRows_matrix has).symm ▸ hi) (line i hi)
  have dim : max data.matrix.width core.numCols = core.numCols := by rw [built.width_matrix has, Nat.max_self]
  obtain ⟨m, assembled, order, width, size, lines⟩ := mergedMatrix_fresh fun i hi => ⟨_, row i hi, dim⟩
  obtain ⟨numRows, numCols, get⟩ := dims_of_byRow order
  rw [size] at numRows
  rw [width] at numCols
  refine ⟨m, assembled, order, numRows, numCols, fun i j hi hj => ?_⟩
  rw [numRows] at hi
  rw [numCols] at hj
  rw [get, lines i _ (row i hi) hi]
  exact get?_mergedRow built inRange has holds hi hj (line i hi)

/-- **A cell of a node's matrix holds the template's value, merged with the last override of the cell.** -/
theorem mergedMatrix_ofOverrides {id : TemplateId} {snapshot : Snapshot} {assignment : Assignment}
    {options : Options} {node : Node} {tally : Tally}
    (built : Template.build id snapshot assignment options = .ok core)
    (accepted : ofOverridesBy limit core stage overrides = .ok (node, tally)) :
    ∃ base merged, core.matrix stage = .ok base ∧ node.mergedMatrix core = .ok merged ∧
      MatrixMerged core stage overrides node base merged := by
  have built := Template.wellBuilt_of_build built
  obtain ⟨lt, inRange, patch, rfl, holds⟩ := ofOverrides_eq_ok built accepted
  obtain ⟨data, has⟩ := built.exists_stage lt
  have ltRows : stage < (core.numbering .row).numStages := built.numStages_numbering .row ▸ lt
  have line : ∀ i, i < (core.numbering .row).width stage → IsLine core.numCols (patch.row i) := fun i hi =>
    holds.row (holds.numRows.symm ▸ hi) ▸ isLine_rowWrites built inRange i
  have row := fun i (hi : i < (core.numbering .row).width stage) =>
    mergedRow_fresh has hi ((built.numRows_matrix has).symm ▸ hi) (line i hi)
  have dim : max data.matrix.width core.numCols = core.numCols := by rw [built.width_matrix has, Nat.max_self]
  obtain ⟨m, assembled, order, width, size, lines⟩ := mergedMatrix_fresh fun i hi => ⟨_, row i hi, dim⟩
  obtain ⟨numRows, numCols, get⟩ := dims_of_byRow order
  rw [size] at numRows
  rw [width] at numCols
  refine ⟨_, m, Template.matrix_eq has, assembled, {
    order, numCols
    numRows := Numbering.count_eq_ok.2 ⟨ltRows, numRows.symm⟩
    row := fun i hi => ?_
    value := fun i j hi hj => ?_
    beyond := fun i j hj => ?_
    owned := fun i hi => (built.coherent .row).stageOf_member ltRows (numRows ▸ hi) }⟩
  · rw [numRows] at hi
    exact ⟨_, row i hi, dim, (lines i _ (row i hi) hi).symm, (MergeRule.mergeSparse ..).isLine.ascending⟩
  · rw [numRows] at hi
    rw [numCols] at hj
    rw [get, lines i _ (row i hi) hi]
    exact get?_mergedRow built inRange has holds hi hj (line i hi)
  · rw [get, lookup_eq_none_iff]
    intro e he same
    have := (m.isLine_line i).bounded e he
    omega

/-- The matrix of a stage that takes turns with another: one cell is given twice, one row is the other stage's. -/
theorem mergedMatrix_interleaved : ∃ core node tally,
    Template.build ⟨0⟩ interleaved interleavedStages {} = .ok core ∧
      ofOverrides core 1 interleavedOverrides = .ok (node, tally) ∧
      ∃ base merged, core.matrix 1 = .ok base ∧ node.mergedMatrix core = .ok merged ∧
        MatrixMerged core 1 interleavedOverrides node base merged := by
  obtain ⟨core, node, tally, built, accepted⟩ := exists_interleaved
  exact ⟨core, node, tally, built, accepted, mergedMatrix_ofOverrides built accepted⟩

end Node
end Multistage
