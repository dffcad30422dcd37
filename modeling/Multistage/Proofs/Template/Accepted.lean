import Multistage.Proofs.Objections
import Multistage.Proofs.Runs
import Multistage.Proofs.Template.Cut
/-!
# When a snapshot is accepted

A snapshot and an assignment of stages have to fit the declared numbers of rows, columns and stages, and each other.
Building a template fails with the first part of them that does not (`stopsAtFirst_build`), and with nothing else: when a row
is renumbered no two of its entries come to one column, so that sorting it leads to a line (`line_eq_sorted`).
-/
namespace Multistage

open Sparse

/-! ## What speaks against a snapshot -/

namespace Snapshot

/-- What speaks against the length of a field. -/
def fieldObjections (s : Snapshot) (f : Field) : List Error :=
  ifNot ((s.fields.get f).size = extent s.numRows s.numCols f.axis)
    (.lengthMismatch (.field f) (extent s.numRows s.numCols f.axis) (s.fields.get f).size)

def shapeObjections (s : Snapshot) : List Error :=
  ifNot (s.matrix.numRows = s.numRows ∧ s.matrix.numCols = s.numCols)
    (.matrixShape (s.numRows, s.numCols) (s.matrix.numRows, s.matrix.numCols))

/-- The integer columns that do not exist, in the order in which they are listed. -/
def integerObjections (s : Snapshot) : List Error :=
  (s.integerCols.filter (s.numCols ≤ ·)).map fun j => .indexOutOfRange .column j s.numCols

/-- What speaks against a snapshot: the rows' bounds come before those of the columns. -/
def objections (s : Snapshot) : List Error :=
  [Field.rowLower, .rowUpper, .colLower, .colUpper, .objective].flatMap s.fieldObjections ++
    (s.shapeObjections ++ s.integerObjections)

variable {s : Snapshot}

theorem objections_eq_nil : s.objections = [] ↔ s.Consistent := by
  simp only [objections, fieldObjections, shapeObjections, integerObjections, List.append_eq_nil_iff,
    List.flatMap_eq_nil_iff, ifNot_eq_nil, List.map_eq_nil_iff, List.filter_eq_nil_iff, decide_eq_true_eq, Nat.not_le]
  constructor
  · rintro ⟨fields, shape, columns⟩
    exact ⟨fun f => fields f (by cases f <;> simp), shape.1, shape.2, columns⟩
  · rintro ⟨fields, rows, cols, columns⟩
    exact ⟨fun f _ => fields f, ⟨rows, cols⟩, columns⟩

theorem stopsAtFirst_checkShape (s : Snapshot) : StopsAtFirst s.checkShape s.shapeObjections := by
  unfold checkShape shapeObjections ifNot
  split
  · exact .clear ()
  · exact .stopped _ _

theorem stopsAtFirst_checkColumns (numCols : Nat) (listed : List Nat) : StopsAtFirst (Partition.checkColumns numCols listed)
    ((listed.filter (numCols ≤ ·)).map fun j => .indexOutOfRange .column j numCols) := by
  apply stopsAtFirst_find? (a := ())
  · intro j found
    rw [Partition.checkColumns, found]
  · intro none
    rw [Partition.checkColumns, none]

theorem stopsAtFirst_check (s : Snapshot) : StopsAtFirst s.check s.objections := by
  have fields : StopsAtFirst (checkOrder.forM s.checkField) (checkOrder.flatMap s.fieldObjections) :=
    .forM (fun f => stopsAtFirst_checkLength (.field f) _ _) checkOrder
  exact fields.bind fun _ _ => s.stopsAtFirst_checkShape.bind fun _ _ => stopsAtFirst_checkColumns ..

end Snapshot

/-! ## What speaks against an assignment -/

namespace Assignment

/-- Every row and every column is assigned to a stage that exists. -/
structure Fits (a : Assignment) (numRows numCols : Nat) : Prop where
  size : ∀ axis, (a.stages axis).size = Snapshot.extent numRows numCols axis
  stage_lt : ∀ axis, ∀ stage ∈ a.stages axis, stage < a.numStages

def sizeObjections (a : Assignment) (axis : Axis) (size : Nat) : List Error :=
  ifNot ((a.stages axis).size = size) (.lengthMismatch (.assignment axis) size (a.stages axis).size)

/-- The indices of an axis whose stage does not exist, in their order. -/
def stageObjections (a : Assignment) (axis : Axis) : List Error :=
  ((a.stages axis).toList.zipIdx.filter fun p => a.numStages ≤ p.1).map fun p =>
    .stageOutOfRange axis p.2 p.1 a.numStages

def objections (a : Assignment) (numRows numCols : Nat) : List Error :=
  a.sizeObjections .row numRows ++ (a.sizeObjections .column numCols ++
    (a.stageObjections .row ++ a.stageObjections .column))

variable {a : Assignment} {numRows numCols : Nat} {axis : Axis}

theorem stageObjections_eq_nil : a.stageObjections axis = [] ↔ ∀ stage ∈ a.stages axis, stage < a.numStages := by
  rw [stageObjections, List.map_eq_nil_iff, List.filter_eq_nil_iff]
  simp only [decide_eq_true_eq, Nat.not_le]
  constructor
  · intro h stage hs
    obtain ⟨i, hi⟩ := List.mem_iff_getElem?.1 (Array.mem_toList_iff.2 hs)
    exact h (stage, i) (List.mem_zipIdx_iff_getElem?.2 (by simpa using hi))
  · intro h p hp
    exact h p.1 (Array.mem_toList_iff.1 (List.fst_mem_of_mem_zipIdx hp))

theorem objections_eq_nil : a.objections numRows numCols = [] ↔ a.Fits numRows numCols := by
  simp only [objections, sizeObjections, List.append_eq_nil_iff, ifNot_eq_nil, stageObjections_eq_nil]
  constructor
  · rintro ⟨rows, cols, rowStages, colStages⟩
    constructor <;> intro axis <;> cases axis
    · exact rows
    · exact cols
    · exact rowStages
    · exact colStages
  · intro h
    exact ⟨h.size .row, h.size .column, h.stage_lt .row, h.stage_lt .column⟩

theorem stopsAtFirst_ofStages (a : Assignment) (axis : Axis) :
    StopsAtFirst (Numbering.ofStages axis (a.stages axis) a.numStages) (a.stageObjections axis) := by
  apply stopsAtFirst_find? (a := Numbering.layOut axis (a.stages axis) a.numStages)
  · intro p found
    rw [Numbering.ofStages_eq, found]
  · intro none
    rw [Numbering.ofStages_eq, none]

theorem stopsAtFirst_partition (a : Assignment) {integerCols : List Nat} (columns : ∀ j ∈ integerCols, j < numCols) :
    StopsAtFirst (Partition.build numRows numCols a integerCols) (a.objections numRows numCols) := by
  refine (stopsAtFirst_checkLength (.assignment .row) numRows _).bind fun _ _ => ?_
  refine (stopsAtFirst_checkLength (.assignment .column) numCols _).bind fun _ _ => ?_
  refine (a.stopsAtFirst_ofStages .row).bind fun rows _ => ?_
  rw [← List.append_nil (a.stageObjections .column)]
  refine (a.stopsAtFirst_ofStages .column).bind fun cols _ => ?_
  -- the integer columns have been checked with the snapshot
  exact .ok_bind (Partition.checkColumns_eq_ok (u := ()).2 columns) (.clear _)

end Assignment

/-! ## Templates -/

namespace Template

variable {core : Template} {snapshot : Snapshot} {assignment : Assignment} {options : Options} {id : TemplateId}

/-- **Building a template fails with the first objection**, to the snapshot or else to the assignment. -/
theorem stopsAtFirst_build (id : TemplateId) (snapshot : Snapshot) (assignment : Assignment) (options : Options) :
    StopsAtFirst (build id snapshot assignment options)
      (snapshot.objections ++ assignment.objections snapshot.numRows snapshot.numCols) := by
  refine snapshot.stopsAtFirst_check.bind fun _ checked => ?_
  have consistent := Snapshot.check_eq_ok.1 checked
  rw [← List.append_nil (assignment.objections ..)]
  refine (assignment.stopsAtFirst_partition consistent.integerCols).bind fun partition numbered => ?_
  obtain ⟨core, built⟩ := exists_build consistent numbered options id
  obtain ⟨_, -, built⟩ := bind_eq_ok.1 built
  obtain ⟨partition', numbered', built⟩ := bind_eq_ok.1 built
  obtain rfl : partition = partition' := Except.ok.inj (numbered.symm.trans numbered')
  exact .of_ok built

theorem exists_build_iff : (∃ core, build id snapshot assignment options = .ok core) ↔
    snapshot.Consistent ∧ assignment.Fits snapshot.numRows snapshot.numCols := by
  rw [(stopsAtFirst_build id snapshot assignment options).ok_iff, List.append_eq_nil_iff, Snapshot.objections_eq_nil,
    Assignment.objections_eq_nil]

/-- Nothing that is objected to is a fault of a line. -/
theorem not_malformed {e : Error} (h : e ∈ snapshot.objections ++ assignment.objections snapshot.numRows snapshot.numCols)
    (fault : Fault) : e ≠ .malformed fault := by
  simp only [Snapshot.objections, Snapshot.fieldObjections, Snapshot.shapeObjections, Snapshot.integerObjections,
    Assignment.objections, Assignment.sizeObjections, Assignment.stageObjections, List.mem_append, List.mem_flatMap,
    mem_ifNot, List.mem_map] at h
  rcases h with (⟨f, -, -, rfl⟩ | ⟨-, rfl⟩ | ⟨j, -, rfl⟩) | ⟨-, rfl⟩ | ⟨-, rfl⟩ | ⟨p, -, rfl⟩ | ⟨p, -, rfl⟩ <;> simp

/-- An entry of a row, its column renumbered. -/
def renumberEntry (cols : Numbering) (e : Entry) : Entry := ⟨cols.place e.index, e.value⟩

/-- No two entries of a row come to one column. -/
theorem nodup_renumbered {cols : Numbering} (coherent : cols.Coherent) {row : List Entry} (line : IsLine cols.size row) :
    ((row.map (renumberEntry cols)).map Entry.index).Nodup := by
  rw [List.map_map, List.Nodup, List.pairwise_map]
  refine line.ascending.imp_of_mem fun {d e} hd he apart same => ?_
  have there := coherent.origin_place (line.bounded d hd)
  have same : cols.place d.index = cols.place e.index := same
  rw [same, coherent.origin_place (line.bounded e he)] at there
  omega

/-- **The rows of a stage are the rows of the snapshot, renumbered and sorted**, and sorting them leads to lines. -/
theorem line_eq_sorted (built : build id snapshot assignment options = .ok core) {stage : Nat} {data : StageData}
    (has : core.stages[stage]? = some data) {i : Nat} (hi : i < data.matrix.numRows) :
    data.matrix.line i = sorted ((snapshot.matrix.byRow.line ((core.numbering .row).member stage i)).map
      (renumberEntry (core.numbering .column))) := by
  have well := wellBuilt_of_build built
  obtain ⟨lt, cut⟩ := cutStage_of_build built has
  obtain ⟨-, -, -, lines⟩ := cutStage_eq_ok cut
  obtain ⟨-, -, check, -, -⟩ := build_eq_ok built
  have place : i < (core.numbering .row).width stage := well.numRows_matrix has ▸ hi
  have member := (well.coherent .row).getElem?_members (well.numStages_numbering .row ▸ lt) i
  rw [if_pos place] at member
  have width : snapshot.matrix.byRow.width = (core.numbering .column).size := by
    rw [(numbering_of_build built .column).2, Snapshot.extent, ← numCols_of_check check, ← Matrix.numCols_byRow,
      Matrix.numCols, Matrix.order_byRow]
  have row := snapshot.matrix.byRow.isLine_line ((core.numbering .row).member stage i)
  rw [width] at row
  rw [← lastWrites_eq_sorted (nodup_renumbered (well.coherent .column) row), Matrix.line, lines,
    Array.getD_eq_getD_getElem?, Array.getElem?_map]
  have member : (core.partition.rows.members stage)[i]? = some ((core.numbering .row).member stage i) := member
  rw [member]
  rfl

end Template
end Multistage
