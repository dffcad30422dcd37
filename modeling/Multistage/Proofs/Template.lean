import Multistage.Proofs.Partition
import Multistage.Template
/-!
# What holds of every template

A template comes into being by `Template.build` only.  `WellBuilt` collects what building guarantees about its
shape: both axes are numbered coherently for the same stages, every stage has its data, and the data of a stage is as
long and as wide as the stage is.  Everything that is done with templates needs no more than this.
-/
namespace Multistage

namespace Template

def numbering (t : Template) (axis : Axis) : Numbering := t.partition.axis axis

structure WellBuilt (t : Template) : Prop where
  coherent : ∀ axis, (t.numbering axis).Coherent
  numStages_numbering : ∀ axis, (t.numbering axis).numStages = t.numStages
  size_stages : t.stages.size = t.numStages
  size_field : ∀ {stage : Nat} {data : StageData} (f : Field), t.stages[stage]? = some data →
    (data.fields.get f).size = (t.numbering f.axis).width stage
  order_matrix : ∀ {stage : Nat} {data : StageData}, t.stages[stage]? = some data → data.matrix.order = .byRow
  width_matrix : ∀ {stage : Nat} {data : StageData}, t.stages[stage]? = some data → data.matrix.width = t.numCols
  size_matrix : ∀ {stage : Nat} {data : StageData}, t.stages[stage]? = some data →
    data.matrix.lines.size = (t.numbering .row).width stage

theorem build_eq_ok {id : TemplateId} {snapshot : Snapshot} {assignment : Assignment} {options : Options}
    {t : Template} (h : build id snapshot assignment options = .ok t) :
    t.id = id ∧ t.options = options ∧ snapshot.check = .ok () ∧
      Partition.build snapshot.numRows snapshot.numCols assignment snapshot.integerCols = .ok t.partition ∧
      (List.range t.numStages).mapM (cutStage t.partition options snapshot.fields snapshot.matrix.byRow) =
        .ok t.stages.toList := by
  simp only [build, bind_eq_ok, pure_eq_ok] at h
  obtain ⟨_, check, partition, hp, stages, hs, rfl⟩ := h
  exact ⟨rfl, rfl, check, hp, hs⟩

theorem cutStage_eq_ok {partition : Partition} {options : Options} {fields : FieldTable (Array Binary64)}
    {byRow : Matrix} {stage : Nat} {data : StageData}
    (h : cutStage partition options fields byRow stage = .ok data) :
    (∀ f, data.fields.get f = cutField partition options stage f (fields.get f)) ∧
      data.matrix.order = .byRow ∧ data.matrix.width = byRow.numCols ∧
      data.matrix.lines = (partition.rows.members stage).map fun e => renumber partition.cols (byRow.line e) := by
  simp only [cutStage, bind_eq_ok, pure_eq_ok, mapError_eq_ok, cutMatrix, Matrix.ofLines?_eq_ok] at h
  obtain ⟨matrix, hm, rfl⟩ := h
  exact ⟨fun f => FieldTable.get_ofFn _ f, hm⟩

theorem numCols_of_check {s : Snapshot} (h : s.check = .ok ()) : s.matrix.numCols = s.numCols := by
  simp only [Snapshot.check, bind_eq_ok] at h
  obtain ⟨_, _, _, shape, _⟩ := h
  unfold Snapshot.checkShape at shape
  split at shape
  · rename_i fits
    exact fits.2
  · cases shape

/-- **Building guarantees the shape.** -/
theorem wellBuilt_of_build {id : TemplateId} {snapshot : Snapshot} {assignment : Assignment} {options : Options}
    {t : Template} (h : build id snapshot assignment options = .ok t) : t.WellBuilt := by
  obtain ⟨-, -, check, partition, stages⟩ := build_eq_ok h
  obtain ⟨-, colStages, rows, cols, numStages, -⟩ := Partition.build_eq_ok partition
  rw [mapM_eq_ok, List.length_range, Array.length_toList] at stages
  have coherent : ∀ axis, (t.numbering axis).Coherent
    | .row => Numbering.coherent_of_ofStages rows
    | .column => Numbering.coherent_of_ofStages cols
  have numStages_numbering : ∀ axis, (t.numbering axis).numStages = t.numStages
    | .row => by
      obtain ⟨-, rows⟩ := Numbering.ofStages_eq_ok.1 rows
      rw [show t.numbering .row = _ from rows, Numbering.numStages_layOut]
      exact numStages.symm
    | .column => by
      obtain ⟨-, cols⟩ := Numbering.ofStages_eq_ok.1 cols
      rw [show t.numbering .column = _ from cols, Numbering.numStages_layOut]
      exact numStages.symm
  have numCols : t.numCols = snapshot.matrix.byRow.numCols := by
    obtain ⟨bounded, cols⟩ := Numbering.ofStages_eq_ok.1 cols
    rw [Matrix.numCols_byRow, numCols_of_check check, ← colStages, ← Numbering.size_layOut .column bounded, ← cols]
    rfl
  have cut : ∀ {stage : Nat} {data : StageData}, t.stages[stage]? = some data → stage < t.numStages ∧
      cutStage t.partition options snapshot.fields snapshot.matrix.byRow stage = .ok data := fun {stage data} hd => by
    have lt : stage < t.numStages := stages.1 ▸ (Array.getElem?_eq_some_iff.1 hd).1
    obtain ⟨data', hd', hc⟩ := stages.2 stage stage (List.getElem?_range lt)
    rw [Array.getElem?_toList, hd, Option.some.injEq] at hd'
    exact ⟨lt, hd' ▸ hc⟩
  exact {
    coherent, numStages_numbering
    size_stages := stages.1
    size_field := fun f hd => by
      obtain ⟨lt, hc⟩ := cut hd
      rw [(cutStage_eq_ok hc).1, cutField, Array.size_map]
      exact (coherent f.axis).size_members (numStages_numbering f.axis ▸ lt)
    order_matrix := fun hd => (cutStage_eq_ok (cut hd).2).2.1
    width_matrix := fun hd => by rw [numCols, (cutStage_eq_ok (cut hd).2).2.2.1]
    size_matrix := fun hd => by
      obtain ⟨lt, hc⟩ := cut hd
      rw [(cutStage_eq_ok hc).2.2.2, Array.size_map]
      exact (coherent .row).size_members (numStages_numbering .row ▸ lt) }

/-! ## Stages that exist -/

variable {t : Template}

theorem stage_eq_ok {stage : Nat} {data : StageData} :
    t.stage stage = .ok data ↔ t.stages[stage]? = some data := by
  unfold Template.stage
  split <;> simp [*]

theorem WellBuilt.exists_stage (h : t.WellBuilt) {stage : Nat} (lt : stage < t.numStages) :
    ∃ data, t.stages[stage]? = some data :=
  ⟨_, Array.getElem?_eq_getElem (h.size_stages ▸ lt)⟩

theorem matrix_eq {stage : Nat} {data : StageData} (has : t.stages[stage]? = some data) :
    t.matrix stage = .ok data.matrix :=
  bind_eq_ok.2 ⟨data, stage_eq_ok.2 has, rfl⟩

theorem row_eq {stage : Nat} {data : StageData} (has : t.stages[stage]? = some data) {i : Nat}
    (h : i < data.matrix.numRows) : t.row stage i = .ok (data.matrix.vector i) := by
  have inside : checkIndex .row i data.matrix.numRows = .ok () := checkIndex_eq_ok.2 h
  exact bind_eq_ok.2 ⟨_, matrix_eq has, bind_eq_ok.2 ⟨(), inside, rfl⟩⟩

theorem WellBuilt.numRows_matrix (built : t.WellBuilt) {stage : Nat} {data : StageData}
    (has : t.stages[stage]? = some data) : data.matrix.numRows = (t.numbering .row).width stage := by
  rw [Matrix.numRows, built.order_matrix has]
  exact built.size_matrix has

theorem WellBuilt.numCols_matrix (built : t.WellBuilt) {stage : Nat} {data : StageData}
    (has : t.stages[stage]? = some data) : data.matrix.numCols = t.numCols := by
  rw [Matrix.numCols, built.order_matrix has]
  exact built.width_matrix has

end Template

/-! ## Small programs -/

/-- Its two stages take turns, a row reaches into the other stage, and a zero is stored. -/
def interleaved : Snapshot where
  numRows := 2
  numCols := 3
  fields := .ofFn fun f => match f.axis with
    | .row => #[0, .posInf]
    | .column => #[0, .posInf, .posInf]
  matrix := {
    order := .byRow
    width := 3
    lines := #[[⟨0, .posInf⟩, ⟨2, .posInf⟩], [⟨1, .negInf⟩, ⟨2, 0⟩]]
    isLine := by decide }
  integerCols := [2]

def interleavedStages : Assignment where
  numStages := 2
  rowStages := #[1, 0]
  colStages := #[1, 0, 1]

/-- Columns of one stage, with upper bounds, and no rows. -/
def columnsOnly (upper : Array Binary64) : Snapshot where
  numRows := 0
  numCols := upper.size
  fields := .ofFn fun f => match f.axis with
    | .row => #[]
    | .column => upper
  matrix := { order := .byRow, width := upper.size, lines := #[], isLine := by simp }
  integerCols := []

def oneStage (numCols : Nat) : Assignment where
  numStages := 1
  rowStages := #[]
  colStages := Array.replicate numCols 0

end Multistage
