import Multistage.Proofs.Matrix
import Multistage.Proofs.Merge
import Multistage.Proofs.Template
/-!
# A template is its snapshot, cut and renumbered

`StageCut` says what the data of a stage is: the cell at a row and a column of the stage is the snapshot's cell at the
external numbers of the two, and the value at a place of a field is the snapshot's value of the index at that place, a
bound normalized and an objective coefficient as it is.

Laid side by side and in external numbers, the cells of all stages are the cells of the snapshot in another order
(`perm_slices`): none is lost, none is doubled.
-/
namespace Multistage

open Sparse

/-- The parts of a snapshot fit its counts. -/
structure Snapshot.Consistent (s : Snapshot) : Prop where
  size_field : ∀ f, (s.fields.get f).size = extent s.numRows s.numCols f.axis
  numRows_matrix : s.matrix.numRows = s.numRows
  numCols_matrix : s.matrix.numCols = s.numCols
  integerCols : ∀ j ∈ s.integerCols, j < s.numCols

theorem Snapshot.check_eq_ok {s : Snapshot} {u : Unit} : s.check = .ok u ↔ s.Consistent := by
  have shape : s.checkShape = .ok () ↔ s.matrix.numRows = s.numRows ∧ s.matrix.numCols = s.numCols := by
    unfold checkShape
    split <;> simp [*]
  have fields : (∀ f ∈ checkOrder, s.checkField f = .ok ()) ↔
      ∀ f, (s.fields.get f).size = extent s.numRows s.numCols f.axis := by
    simp only [checkField, checkLength_eq_ok]
    exact ⟨fun h f => h f (by cases f <;> decide), fun h f _ => h f⟩
  simp only [check, bind_eq_ok, forM_eq_ok, fields, shape, Partition.checkColumns_eq_ok]
  exact ⟨fun ⟨_, fields, _, shape, cols⟩ => ⟨fields, shape.1, shape.2, cols⟩,
    fun h => ⟨(), h.size_field, (), ⟨h.numRows_matrix, h.numCols_matrix⟩, h.integerCols⟩⟩

namespace Template

variable {core : Template} {snapshot : Snapshot} {assignment : Assignment} {options : Options} {id : TemplateId}
  {stage : Nat} {data : StageData}

/-! ## Numbers of a template -/

theorem numbering_of_build (built : build id snapshot assignment options = .ok core) (axis : Axis) :
    (core.numbering axis).stageOf = assignment.stages axis ∧
      (core.numbering axis).size = Snapshot.extent snapshot.numRows snapshot.numCols axis := by
  obtain ⟨-, -, -, partition, -⟩ := build_eq_ok built
  obtain ⟨numRows, numCols, rows, cols, -⟩ := Partition.build_eq_ok partition
  cases axis with
  | row =>
    obtain ⟨bounded, rows⟩ := Numbering.ofStages_eq_ok.1 rows
    rw [show core.numbering .row = _ from rows]
    exact ⟨rfl, (Numbering.size_layOut .row bounded).trans numRows⟩
  | column =>
    obtain ⟨bounded, cols⟩ := Numbering.ofStages_eq_ok.1 cols
    rw [show core.numbering .column = _ from cols]
    exact ⟨rfl, (Numbering.size_layOut .column bounded).trans numCols⟩

/-- The external index of an internal number exists. -/
theorem origin_lt_of_build (built : build id snapshot assignment options = .ok core) (axis : Axis) {i : Nat}
    (h : i < (core.numbering axis).size) : (core.numbering axis).origin i < (core.numbering axis).size := by
  have origin_lt : ∀ {stageOf : Array Nat} {n : Numbering},
      Numbering.ofStages axis stageOf assignment.numStages = .ok n → i < n.size → n.origin i < n.size :=
    fun {stageOf n} numbered h => by
      obtain ⟨bounded, rfl⟩ := Numbering.ofStages_eq_ok.1 numbered
      rw [Numbering.size_layOut axis bounded] at h ⊢
      exact Numbering.origin_lt_layOut axis bounded h
  obtain ⟨-, -, -, partition, -⟩ := build_eq_ok built
  obtain ⟨-, -, rows, cols, -⟩ := Partition.build_eq_ok partition
  cases axis with
  | row => exact origin_lt rows h
  | column => exact origin_lt cols h

/-- The data of a stage is what is cut for it. -/
theorem cutStage_of_build (built : build id snapshot assignment options = .ok core)
    (has : core.stages[stage]? = some data) :
    stage < core.numStages ∧
      cutStage core.partition options snapshot.fields snapshot.matrix.byRow stage = .ok data := by
  have lt : stage < core.numStages := (wellBuilt_of_build built).size_stages ▸ (Array.getElem?_eq_some_iff.1 has).1
  obtain ⟨-, -, -, -, stages⟩ := build_eq_ok built
  obtain ⟨data', found, cut⟩ := (mapM_eq_ok.1 stages).2 stage stage (List.getElem?_range lt)
  rw [Array.getElem?_toList, has, Option.some.injEq] at found
  exact ⟨lt, found ▸ cut⟩

/-- A row keeps what it holds when its columns are renumbered. -/
theorem lookup_renumber (cols : Numbering) {row : List Entry} (ascending : Ascending row) {j : Nat}
    (inj : ∀ e ∈ row, cols.place e.index = cols.place j → e.index = j) :
    lookup (renumber cols row) (cols.place j) = lookup row j := by
  have kept : ∀ l : List Entry, (∀ e ∈ l, cols.place e.index = cols.place j → e.index = j) →
      lookup (l.map fun e => ⟨cols.place e.index, e.value⟩) (cols.place j) = lookup l j := by
    intro l
    induction l with
    | nil => exact fun _ => rfl
    | cons e l ih =>
      intro inj
      obtain ⟨here, rest⟩ := List.forall_mem_cons.1 inj
      rw [List.map_cons, lookup_cons, lookup_cons, ih rest]
      by_cases hj : e.index = j
      · rw [if_pos (congrArg cols.place hj), if_pos hj]
      · rw [if_neg fun same => hj (here same), if_neg hj]
  rw [renumber, lookup_lastWrites, lastWrite?, ← List.map_reverse,
    kept row.reverse fun e he => inj e (List.mem_reverse.1 he), ← lastWrite?,
    MergeRule.lastWrite?_of_ascending ascending]

/-- Renumbering leaves a row in order and in bounds. -/
theorem isLine_renumber {cols : Numbering} (coherent : cols.Coherent) {row : List Entry}
    (bounded : ∀ e ∈ row, e.index < cols.size) : IsLine cols.size (renumber cols row) := by
  refine ⟨ascending_lastWrites _, fun e he => ?_⟩
  obtain ⟨d, hd, rfl⟩ := List.mem_map.1 (mem_of_mem_lastWrites he)
  exact coherent.place_lt (bounded d hd)

/-- **Only the snapshot and the assignment can be refused**: cutting the stages never fails. -/
theorem exists_build (consistent : snapshot.Consistent) {partition : Partition}
    (numbered : Partition.build snapshot.numRows snapshot.numCols assignment snapshot.integerCols = .ok partition)
    (options : Options) (id : TemplateId) : ∃ core, build id snapshot assignment options = .ok core := by
  obtain ⟨-, numCols, -, cols, -⟩ := Partition.build_eq_ok numbered
  obtain ⟨bounded, numberedCols⟩ := Numbering.ofStages_eq_ok.1 cols
  have width : partition.cols.size = snapshot.matrix.byRow.numCols := by
    rw [numberedCols, Numbering.size_layOut .column bounded, numCols, Matrix.numCols_byRow, consistent.numCols_matrix]
  have cut : ∀ stage ∈ List.range partition.numStages,
      ∃ data, cutStage partition options snapshot.fields snapshot.matrix.byRow stage = .ok data := fun stage _ => by
    have isLine : ∀ l ∈ (partition.rows.members stage).map fun e =>
        renumber partition.cols (snapshot.matrix.byRow.line e),
        IsLine snapshot.matrix.byRow.numCols l := fun l hl => by
      obtain ⟨e, -, rfl⟩ := Array.mem_map.1 hl
      refine width ▸ isLine_renumber (Numbering.coherent_of_ofStages cols) fun d hd => ?_
      rw [width, Matrix.numCols, Matrix.order_byRow]
      exact (snapshot.matrix.byRow.isLine_line e).bounded d hd
    have lines : cutMatrix partition snapshot.matrix.byRow stage = .ok ⟨.byRow, _, _, isLine⟩ :=
      Matrix.ofLines?_eq_ok.2 ⟨rfl, rfl, rfl⟩
    exact ⟨_, bind_eq_ok.2 ⟨_, mapError_eq_ok.2 lines, rfl⟩⟩
  obtain ⟨stages, all⟩ := exists_mapM_eq_ok cut
  exact ⟨_, bind_eq_ok.2 ⟨(), Snapshot.check_eq_ok.2 consistent, bind_eq_ok.2 ⟨_, numbered,
    bind_eq_ok.2 ⟨stages, all, rfl⟩⟩⟩⟩

/-! ## A stage -/

/-- The data of a stage is the stage's share of the snapshot.  The number of a row or a place in the stage stands for the
index at that place of the stage, the internal number of a column for its external one. -/
structure StageCut (core : Template) (snapshot : Snapshot) (stage : Nat) (data : StageData) : Prop where
  order : data.matrix.order = .byRow
  numRows : (core.numbering .row).count stage = .ok data.matrix.numRows
  numCols : data.matrix.numCols = snapshot.numCols
  cell : ∀ i j, i < data.matrix.numRows → j < data.matrix.numCols → data.matrix.get? i j =
    snapshot.matrix.get? ((core.numbering .row).member stage i) ((core.numbering .column).origin j)
  ascending : ∀ i, Ascending (data.matrix.line i)
  inside : ∀ i j v, data.matrix.get? i j = some v → i < data.matrix.numRows ∧ j < data.matrix.numCols
  size_field : ∀ f, (core.numbering f.axis).count stage = .ok (data.fields.get f).size
  value : ∀ f p, p < (data.fields.get f).size → ∃ v,
    (snapshot.fields.get f)[(core.numbering f.axis).member stage p]? = some v ∧
      (data.fields.get f)[p]? = some (if f = .objective then v else core.options.normalize v)

theorem WellBuilt.count_eq_ok (built : core.WellBuilt) (lt : stage < core.numStages) (axis : Axis) :
    (core.numbering axis).count stage = .ok ((core.numbering axis).width stage) :=
  Numbering.count_eq_ok.2 ⟨built.numStages_numbering axis ▸ lt, rfl⟩

theorem get?_cutStage (built : build id snapshot assignment options = .ok core)
    (has : core.stages[stage]? = some data) {i j : Nat} (hi : i < (core.numbering .row).width stage)
    (hj : j < core.numCols) : data.matrix.get? i j =
      snapshot.matrix.get? ((core.numbering .row).member stage i) ((core.numbering .column).origin j) := by
  obtain ⟨lt, cut⟩ := cutStage_of_build built has
  obtain ⟨-, -, check, -, -⟩ := build_eq_ok built
  have well := wellBuilt_of_build built
  have cols := well.coherent .column
  have lines := (cutStage_eq_ok cut).2.2.2
  have member : ((core.numbering .row).members stage)[i]? = some ((core.numbering .row).member stage i) := by
    rw [(well.coherent .row).getElem?_members (well.numStages_numbering .row ▸ lt), if_pos hi]
  have line : data.matrix.line i = renumber (core.numbering .column)
      (snapshot.matrix.byRow.line ((core.numbering .row).member stage i)) := by
    rw [Matrix.line, Array.getD_eq_getD_getElem?, lines, Array.getElem?_map,
      show core.partition.rows = core.numbering .row from rfl, member]
    rfl
  have bounded := snapshot.matrix.byRow.isLine_line ((core.numbering .row).member stage i)
  have width : snapshot.matrix.byRow.width = (core.numbering .column).size := by
    rw [(numbering_of_build built .column).2, Snapshot.extent, ← numCols_of_check check, ← Matrix.numCols_byRow,
      Matrix.numCols, Matrix.order_byRow]
  have renumbered := lookup_renumber (core.numbering .column) bounded.ascending
    (j := (core.numbering .column).origin j) fun e he same => by
      have inCols : e.index < (core.numbering .column).size := width ▸ bounded.bounded e he
      rw [← cols.origin_place inCols, same, cols.place_origin hj]
  rw [cols.place_origin hj] at renumbered
  rw [Matrix.get?, well.order_matrix has, ← Matrix.get?_byRow, Matrix.get?, Matrix.order_byRow]
  dsimp only
  rw [line, renumbered]

/-- **A stage is cut out of the snapshot.** -/
theorem stageCut_of_build (built : build id snapshot assignment options = .ok core)
    (has : core.stages[stage]? = some data) : StageCut core snapshot stage data := by
  obtain ⟨lt, cut⟩ := cutStage_of_build built has
  obtain ⟨-, opts, check, -, -⟩ := build_eq_ok built
  have well := wellBuilt_of_build built
  have consistent := Snapshot.check_eq_ok.1 check
  have numRows := well.numRows_matrix has
  have numCols := well.numCols_matrix has
  exact {
    order := well.order_matrix has
    numRows := numRows ▸ well.count_eq_ok lt .row
    numCols := numCols.trans (numbering_of_build built .column).2
    cell := fun i j hi hj => get?_cutStage built has (numRows ▸ hi) (numCols ▸ hj)
    ascending := fun i => (data.matrix.isLine_line i).ascending
    inside := fun i j v found => Matrix.lt_of_get? found
    size_field := fun f => well.size_field f has ▸ well.count_eq_ok lt f.axis
    value := fun f p hp => by
      have coherent := well.coherent f.axis
      have lt := well.numStages_numbering f.axis ▸ lt
      rw [well.size_field f has] at hp
      have owned := coherent.stageOf_member lt hp
      have inside : (core.numbering f.axis).member stage p < (snapshot.fields.get f).size := by
        rw [consistent.size_field f, ← (numbering_of_build built f.axis).2, ← coherent.size_stageOf]
        exact (Array.getElem?_eq_some_iff.1 owned).1
      refine ⟨_, Array.getElem?_eq_getElem inside, ?_⟩
      rw [(cutStage_eq_ok cut).1, cutField, Array.getElem?_map,
        show core.partition.axis f.axis = core.numbering f.axis from rfl, coherent.getElem?_members lt, if_pos hp,
        Option.map_some, Array.getD_eq_getD_getElem?, Array.getElem?_eq_getElem inside, opts, Options.stored_eq]
      rfl }

/-! ## All stages -/

/-- A cell of a stage in external numbers. -/
def external (core : Template) (stage : Nat) (c : Matrix.Cell) : Matrix.Cell :=
  ⟨(core.numbering .row).member stage c.row, (core.numbering .column).origin c.col, c.value⟩

/-- The cells of all stages, in external numbers. -/
def slices (core : Template) : List Matrix.Cell :=
  core.stages.toList.zipIdx.flatMap fun p => p.1.matrix.cells.map (core.external p.2)

/-- A stage holds a cell of the snapshot. -/
def InSlice (core : Template) (stage : Nat) (c : Matrix.Cell) : Prop :=
  ∃ data, core.stage stage = .ok data ∧ ∃ d ∈ data.matrix.cells, core.external stage d = c

theorem mem_slices {c : Matrix.Cell} : c ∈ core.slices ↔ ∃ stage, core.InSlice stage c := by
  simp only [slices, List.mem_flatMap, List.mem_map, InSlice, stage_eq_ok]
  constructor
  · rintro ⟨⟨data, stage⟩, hp, d, hd, rfl⟩
    exact ⟨stage, data, by simpa using List.mem_zipIdx_iff_getElem?.1 hp, d, hd, rfl⟩
  · rintro ⟨stage, data, has, d, hd, rfl⟩
    exact ⟨(data, stage), List.mem_zipIdx_iff_getElem?.2 (by simpa using has), d, hd, rfl⟩

section Built

variable (built : build id snapshot assignment options = .ok core)
include built

/-- What a stage holds is the snapshot's, in a row of the stage. -/
theorem of_inSlice {c : Matrix.Cell} (held : core.InSlice stage c) :
    c ∈ snapshot.matrix.cells ∧ (core.numbering .row).stageOf[c.row]? = some stage := by
  obtain ⟨data, has, d, hd, rfl⟩ := held
  have has := stage_eq_ok.1 has
  have well := wellBuilt_of_build built
  have cut := stageCut_of_build built has
  have found := Matrix.mem_cells.1 hd
  obtain ⟨hi, hj⟩ := cut.inside _ _ _ found
  obtain ⟨lt, width⟩ := Numbering.count_eq_ok.1 cut.numRows
  rw [cut.cell _ _ hi hj] at found
  exact ⟨Matrix.mem_cells.2 found, (well.coherent .row).stageOf_member lt (width.symm ▸ hi)⟩

/-- A cell of the snapshot is held by the stage of its row. -/
theorem inSlice_of_mem {c : Matrix.Cell} (hc : c ∈ snapshot.matrix.cells)
    (owned : (core.numbering .row).stageOf[c.row]? = some stage) : core.InSlice stage c := by
  obtain ⟨-, -, check, -, -⟩ := build_eq_ok built
  have well := wellBuilt_of_build built
  have consistent := Snapshot.check_eq_ok.1 check
  have rows := well.coherent .row
  have cols := well.coherent .column
  have found := Matrix.mem_cells.1 hc
  have inCols : c.col < (core.numbering .column).size := by
    rw [(numbering_of_build built .column).2, Snapshot.extent, ← consistent.numCols_matrix]
    exact (Matrix.lt_of_get? found).2
  obtain ⟨data, has⟩ := well.exists_stage (well.numStages_numbering .row ▸ rows.stage_lt owned)
  have cell := get?_cutStage built has (rows.localPlace_lt owned) (cols.place_lt inCols)
  rw [rows.member_localPlace owned, cols.origin_place inCols, found] at cell
  refine ⟨data, stage_eq_ok.2 has, ⟨(core.numbering .row).localPlace stage c.row,
    (core.numbering .column).place c.col, c.value⟩, Matrix.mem_cells.2 cell, ?_⟩
  rw [external, rows.member_localPlace owned, cols.origin_place inCols]

theorem exists_owner {c : Matrix.Cell} (hc : c ∈ snapshot.matrix.cells) :
    ∃ stage, (core.numbering .row).stageOf[c.row]? = some stage := by
  obtain ⟨-, -, check, -, -⟩ := build_eq_ok built
  have rows := (wellBuilt_of_build built).coherent .row
  have inRows : c.row < (core.numbering .row).size := by
    rw [(numbering_of_build built .row).2, Snapshot.extent, ← (Snapshot.check_eq_ok.1 check).numRows_matrix]
    exact (Matrix.lt_of_get? (Matrix.mem_cells.1 hc)).1
  exact ⟨_, Array.getElem?_eq_getElem (rows.size_stageOf ▸ inRows)⟩

/-- The external numbers tell the cells of a stage apart. -/
theorem external_inj (has : core.stages[stage]? = some data) {c d : Matrix.Cell} (hc : c ∈ data.matrix.cells)
    (hd : d ∈ data.matrix.cells) (same : core.external stage c = core.external stage d) : c = d := by
  have well := wellBuilt_of_build built
  have rows := well.coherent .row
  have cols := well.coherent .column
  have cut := stageCut_of_build built has
  obtain ⟨lt, width⟩ := Numbering.count_eq_ok.1 cut.numRows
  have size : data.matrix.numCols = (core.numbering .column).size :=
    cut.numCols.trans (numbering_of_build built .column).2.symm
  have back : ∀ b ∈ data.matrix.cells, b = ⟨(core.numbering .row).localPlace stage (core.external stage b).row,
      (core.numbering .column).place (core.external stage b).col, (core.external stage b).value⟩ := fun b hb => by
    obtain ⟨hi, hj⟩ := cut.inside _ _ _ (Matrix.mem_cells.1 hb)
    rw [external, rows.localPlace_member lt (width.symm ▸ hi), cols.place_origin (size ▸ hj)]
  rw [back c hc, back d hd, same]

theorem nodup_slices : core.slices.Nodup := by
  have has : ∀ p ∈ core.stages.toList.zipIdx, core.stages[p.2]? = some p.1 := fun p hp => by
    simpa using List.mem_zipIdx_iff_getElem?.1 hp
  rw [slices, List.Nodup, List.pairwise_flatMap]
  refine ⟨fun p hp => ?_, ?_⟩
  · rw [List.pairwise_map]
    exact (Matrix.nodup_cells p.1.matrix).imp_of_mem fun hc hd other same =>
      other (external_inj built (has p hp) hc hd same)
  · refine (pairwise_zipIdx core.stages.toList).imp_of_mem fun {p q} hp hq lt c hc d hd same => ?_
    have held : ∀ p ∈ core.stages.toList.zipIdx, ∀ c ∈ p.1.matrix.cells.map (core.external p.2),
        core.InSlice p.2 c := fun p hp c hc => by
      obtain ⟨b, hb, rfl⟩ := List.mem_map.1 hc
      exact ⟨p.1, stage_eq_ok.2 (has p hp), b, hb, rfl⟩
    have first := (of_inSlice built (held p hp c hc)).2
    have second := (of_inSlice built (held q hq d hd)).2
    rw [same, second, Option.some.injEq] at first
    omega

/-- **The stages hold the cells of the snapshot, each once.** -/
theorem perm_slices : core.slices.Perm snapshot.matrix.cells :=
  (List.perm_ext_iff_of_nodup (nodup_slices built) (Matrix.nodup_cells _)).2 fun c => by
    rw [mem_slices]
    refine ⟨fun ⟨_, held⟩ => (of_inSlice built held).1, fun hc => ?_⟩
    obtain ⟨stage, owned⟩ := exists_owner built hc
    exact ⟨stage, inSlice_of_mem built hc owned⟩

/-- The sizes of the stages add up to the size of the snapshot's matrix. -/
theorem sum_size_stages : (core.stages.toList.map (·.matrix.size)).foldr (· + ·) 0 = snapshot.matrix.size := by
  have lengths : ∀ l : List (StageData × Nat), (l.flatMap fun p => p.1.matrix.cells.map (core.external p.2)).length =
      (l.map (·.1.matrix.size)).foldr (· + ·) 0 := by
    intro l
    induction l with
    | nil => rfl
    | cons p l ih =>
      rw [List.flatMap_cons, List.length_append, List.length_map, Matrix.length_cells, ih, List.map_cons,
        List.foldr_cons]
  rw [← Matrix.length_cells, ← (perm_slices built).length_eq, slices, lengths,
    ← List.zipIdx_map_fst 0 core.stages.toList, List.map_map, List.zipIdx_map_fst]
  rfl

end Built

end Template
end Multistage
