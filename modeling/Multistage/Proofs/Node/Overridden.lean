import Multistage.Proofs.Node.Field
import Multistage.Proofs.Node.Matrix
import Multistage.Proofs.Template.Cut
/-!
# Under replacement a node is a stage of the overridden program

There are two ways to what a scenario holds.  One cuts the program into stages and then merges a node's patch onto a stage;
the other writes the overrides into the program and cuts that.  `agreesWith_overridden` says that they meet: the
numbers, the bounds made infinite and the order of the entries are the same, and only the zeros that a node may leave
out tell them apart.
-/
namespace Multistage

open Sparse

/-! ## The overridden program -/

namespace Snapshot

/-- A field in which the last override of each index of a stage has taken the place of the value. -/
def overriddenField (s : Snapshot) (assignment : Assignment) (stage : Nat) (o : Overrides) (f : Field) :
    Array Binary64 :=
  (s.fields.get f).mapIdx fun e v =>
    if (assignment.stages f.axis)[e]? = some stage then (o.value? f e).getD v else v

/-- What a matrix position holds once the last override of it is written, if its row belongs to a stage. -/
def overriddenCell (s : Snapshot) (assignment : Assignment) (stage : Nat) (o : Overrides) (row col : Nat) :
    Option Binary64 :=
  if assignment.rowStages[row]? = some stage then (o.cell? row col).or (s.matrix.get? row col)
  else s.matrix.get? row col

/-- A snapshot with the overrides of one stage written into it. -/
def overridden (s : Snapshot) (assignment : Assignment) (stage : Nat) (o : Overrides) : Snapshot :=
  { s with
    fields := .ofFn (s.overriddenField assignment stage o)
    matrix := Matrix.tabulate s.matrix.order s.numRows s.numCols (s.overriddenCell assignment stage o) }

variable {s : Snapshot} {assignment : Assignment} {stage : Nat} {o : Overrides}

theorem getElem?_overridden (f : Field) (e : Nat) :
    ((s.overridden assignment stage o).fields.get f)[e]? = (s.fields.get f)[e]?.map fun v =>
      if (assignment.stages f.axis)[e]? = some stage then (o.value? f e).getD v else v := by
  rw [overridden, FieldTable.get_ofFn, overriddenField, Array.getElem?_mapIdx]

theorem get?_overridden {row col : Nat} (hr : row < s.numRows) (hc : col < s.numCols) :
    (s.overridden assignment stage o).matrix.get? row col = s.overriddenCell assignment stage o row col := by
  rw [overridden, Matrix.get?_tabulate, if_pos ⟨hr, hc⟩]

/-- Overriding values keeps the shape. -/
theorem Consistent.overridden (h : s.Consistent) : (s.overridden assignment stage o).Consistent where
  size_field f := by
    rw [Snapshot.overridden, FieldTable.get_ofFn, overriddenField, Array.size_mapIdx]
    exact h.size_field f
  numRows_matrix := Matrix.numRows_tabulate
  numCols_matrix := Matrix.numCols_tabulate
  integerCols := h.integerCols

end Snapshot

namespace Matrix

/-- A matrix without the entries that are equal to zero. -/
def dropZeros (m : Matrix) : Matrix where
  order := m.order
  width := m.width
  lines := m.lines.map fun l => l.filter fun e => !e.value.isZero
  isLine l hl := by
    obtain ⟨k, hk, rfl⟩ := Array.mem_map.1 hl
    exact ⟨(m.isLine k hk).ascending.filter _, fun e he => (m.isLine k hk).bounded e (List.mem_filter.1 he).1⟩

@[simp] theorem order_dropZeros (m : Matrix) : m.dropZeros.order = m.order := rfl

@[simp] theorem numRows_dropZeros (m : Matrix) : m.dropZeros.numRows = m.numRows := by
  simp [numRows, dropZeros]

@[simp] theorem numCols_dropZeros (m : Matrix) : m.dropZeros.numCols = m.numCols := by
  simp [numCols, dropZeros]

theorem line_dropZeros (m : Matrix) (k : Nat) : m.dropZeros.line k = (m.line k).filter fun e => !e.value.isZero := by
  rw [line, line, dropZeros, Array.getD_eq_getD_getElem?, Array.getD_eq_getD_getElem?, Array.getElem?_map]
  cases m.lines[k]? <;> rfl

@[simp] theorem get?_dropZeros (m : Matrix) (i j : Nat) :
    m.dropZeros.get? i j = (m.get? i j).filter fun v => !v.isZero := by
  have lookup_line : ∀ k i, lookup (m.dropZeros.line k) i = (lookup (m.line k) i).filter fun v => !v.isZero :=
    fun k i => by rw [line_dropZeros, lookup_filter (m.isLine_line k).ascending fun v => !v.isZero]
  rw [get?, get?, order_dropZeros]
  cases m.order with
  | byRow => exact lookup_line i j
  | byColumn => exact lookup_line j i

/-- A matrix that answers as another does, but for the zeros that are to be dropped, is the other one or what dropping
leaves of it. -/
theorem eq_of_keepValue {m n : Matrix} {drop : Bool} (order : m.order = n.order) (numRows : m.numRows = n.numRows)
    (numCols : m.numCols = n.numCols) (get : ∀ i j, i < m.numRows → j < m.numCols →
      m.get? i j = MergeRule.keepValue drop (n.get? i j)) : m = if drop then n.dropZeros else n := by
  have get : ∀ i j, m.get? i j = MergeRule.keepValue drop (n.get? i j) := fun i j => by
    by_cases inside : i < m.numRows ∧ j < m.numCols
    · exact get i j inside.1 inside.2
    · rw [get?_eq_none inside, get?_eq_none (numRows ▸ numCols ▸ inside)]
      rfl
  cases drop with
  | false => exact ext_get? order numRows numCols fun i j => (get i j).trans (MergeRule.keepValue_false _)
  | true =>
    exact ext_get? order (numRows.trans n.numRows_dropZeros.symm) (numCols.trans n.numCols_dropZeros.symm)
      fun i j => (get i j).trans (n.get?_dropZeros i j).symm

end Matrix

/-! ## Both ways meet -/

namespace Node

variable {limit : Nat} {core direct : Template} {stage : Nat} {overrides : Overrides} {id id' : TemplateId}
  {snapshot : Snapshot} {assignment : Assignment} {options : Options} {data data' : StageData} {patch : Patch}

/-- A node answers for its stage as another template does, but for the zeros that are to be dropped. -/
structure AgreesWith (core : Template) (node : Node) (stage : Nat) (direct : Template) : Prop where
  field : ∀ f, ∃ values : Array Binary64, (core.numbering f.axis).count stage = .ok values.size ∧
    ∀ buffer : Array Binary64, buffer.size = values.size → (node.fillField core f).run buffer = .ok () values
  fillField : ∀ f buffer, (node.fillField core f).run buffer = (direct.fillField stage f).run buffer
  matrix : ∃ m, direct.matrix stage = .ok m ∧
    node.mergedMatrix core = .ok (if core.options.dropZeros then m.dropZeros else m)

/-- The overridden program is accepted, and numbered as the program is. -/
theorem exists_overridden (built : Template.build id snapshot assignment options = .ok core) (stage : Nat)
    (overrides : Overrides) (id' : TemplateId) :
    ∃ direct, Template.build id' (snapshot.overridden assignment stage overrides) assignment options = .ok direct ∧
      direct.partition = core.partition := by
  obtain ⟨-, -, check, partition, -⟩ := Template.build_eq_ok built
  have consistent : (snapshot.overridden assignment stage overrides).Consistent :=
    (Snapshot.check_eq_ok.1 check).overridden
  obtain ⟨direct, built'⟩ := Template.exists_build consistent partition options id'
  obtain ⟨-, -, -, partition', -⟩ := Template.build_eq_ok built'
  exact ⟨direct, built', Except.ok.inj (partition'.symm.trans partition)⟩

section Meet

variable (built : Template.build id snapshot assignment options = .ok core)
  (built' : Template.build id' (snapshot.overridden assignment stage overrides) assignment options = .ok direct)
  (same : direct.partition = core.partition) (has : core.stages[stage]? = some data)
  (has' : direct.stages[stage]? = some data')
include built built' same has has'

/-- **The fields meet**: what is normalized and then written into the stage is what is written into the program, cut out
and normalized. -/
theorem scatter_eq_overridden (holds : HoldsOverrides core stage overrides patch) (f : Field) :
    MergeRule.replace.scatter (data.fields.get f) (patch.field f) = data'.fields.get f := by
  have well := Template.wellBuilt_of_build built
  have coherent := well.coherent f.axis
  have cut := Template.stageCut_of_build built has
  have cut' := Template.stageCut_of_build built' has'
  have numbering : direct.numbering f.axis = core.numbering f.axis := congrArg (·.axis f.axis) same
  have size : (data'.fields.get f).size = (data.fields.get f).size := by
    have count := cut'.size_field f
    rw [numbering, cut.size_field f] at count
    exact (Except.ok.inj count).symm
  refine Array.ext_getElem? fun p => ?_
  by_cases hp : p < (data.fields.get f).size
  · obtain ⟨v, said, here⟩ := cut.value f p hp
    obtain ⟨w, said', here'⟩ := cut'.value f p (size.symm ▸ hp)
    rw [← Options.stored_eq] at here here'
    obtain ⟨lt, width⟩ := Numbering.count_eq_ok.1 (cut.size_field f)
    have owned := coherent.stageOf_member lt (width.symm ▸ hp)
    have kept : lookup (patch.field f) p =
        (overrides.value? f ((core.numbering f.axis).member stage p)).map (core.options.stored f) := by
      rw [← lookup_fieldWrites well.coherent f owned, coherent.localPlace_member lt (width.symm ▸ hp), holds.field f]
    rw [numbering, Snapshot.getElem?_overridden, said, Option.map_some, ← (Template.numbering_of_build built f.axis).1,
      if_pos owned, Option.some.injEq] at said'
    rw [MergeRule.scatter_getElem? _ (holds.field f ▸ ascending_lastWrites _), here, here', kept, ← said',
      (Template.build_eq_ok built).2.1, (Template.build_eq_ok built').2.1]
    cases overrides.value? f ((core.numbering f.axis).member stage p) <;> rfl
  · rw [Array.getElem?_eq_none (by rw [MergeRule.size_scatter]; omega), Array.getElem?_eq_none (by omega)]

/-- **The cells meet**: the overridden program stores in a stage what a node's row merged onto the stage's would. -/
theorem get?_overridden_stage {i j : Nat} (hi : i < (core.numbering .row).width stage) (hj : j < core.numCols) :
    data'.matrix.get? i j = MergeRule.replace.mergeValue (data.matrix.get? i j)
      (overrides.cell? ((core.numbering .row).member stage i) ((core.numbering .column).origin j)) := by
  have well := Template.wellBuilt_of_build built
  have lt : stage < core.numStages := well.size_stages ▸ (Array.getElem?_eq_some_iff.1 has).1
  have owned := (well.coherent .row).stageOf_member (well.numStages_numbering .row ▸ lt) hi
  obtain ⟨stages, numRows⟩ := Template.numbering_of_build built .row
  have inRows : (core.numbering .row).member stage i < snapshot.numRows := by
    have := (Array.getElem?_eq_some_iff.1 owned).1
    rwa [(well.coherent .row).size_stageOf, numRows] at this
  have inCols : (core.numbering .column).origin j < snapshot.numCols := by
    have := Template.origin_lt_of_build built .column hj
    rwa [(Template.numbering_of_build built .column).2] at this
  have cell := Template.get?_cutStage built' has' (i := i) (j := j)
  rw [Template.numCols, Template.numbering, Template.numbering, same] at cell
  rw [cell hi hj, Template.get?_cutStage built has hi hj]
  -- the numbers are those of either template
  show (snapshot.overridden assignment stage overrides).matrix.get? ((core.numbering .row).member stage i)
    ((core.numbering .column).origin j) = _
  have assigned : assignment.rowStages[(core.numbering .row).member stage i]? = some stage :=
    (congrArg (·[(core.numbering .row).member stage i]?) stages).symm.trans owned
  rw [Snapshot.get?_overridden inRows inCols, Snapshot.overriddenCell, if_pos assigned]
  cases overrides.cell? ((core.numbering .row).member stage i) ((core.numbering .column).origin j) <;> rfl

/-- The assembled matrix of a node is the stage of the overridden program, with zeros left out if they are to be. -/
theorem mergedMatrix_eq_overridden (replaces : core.options.rule = .replace) (inRange : InRange core overrides)
    (holds : HoldsOverrides core stage overrides patch) : (patched core stage patch).mergedMatrix core =
      .ok (if core.options.dropZeros then data'.matrix.dropZeros else data'.matrix) := by
  have well := Template.wellBuilt_of_build built
  have well' := Template.wellBuilt_of_build built'
  have numRows' : data'.matrix.numRows = (core.numbering .row).width stage := by
    rw [well'.numRows_matrix has', Template.numbering, same]
    rfl
  have numCols' : data'.matrix.numCols = core.numCols := by
    rw [well'.numCols_matrix has', Template.numCols, same]
    rfl
  obtain ⟨m, assembled, order, numRows, numCols, cell⟩ := exists_mergedMatrix well inRange has holds
  rw [assembled, Except.ok.injEq]
  refine Matrix.eq_of_keepValue (order.trans (well'.order_matrix has').symm) (numRows.trans numRows'.symm)
    (numCols.trans numCols'.symm) fun i j hi hj => ?_
  rw [cell i j hi hj, replaces,
    get?_overridden_stage built built' same has has' (numRows ▸ hi) (numCols ▸ hj)]

end Meet

/-- **Under replacement a node is a stage of the overridden program**, whatever the two are asked, and whether or not
a buffer fits.  Only the zeros that the options drop from a node's matrix tell them apart. -/
theorem agreesWith_overridden {node : Node} {tally : Tally}
    (built : Template.build id snapshot assignment options = .ok core) (replaces : options.rule = .replace)
    (accepted : ofOverridesBy limit core stage overrides = .ok (node, tally)) (id' : TemplateId) :
    ∃ direct, Template.build id' (snapshot.overridden assignment stage overrides) assignment options = .ok direct ∧
      node.AgreesWith core stage direct := by
  have well := Template.wellBuilt_of_build built
  obtain ⟨lt, inRange, patch, rfl, holds⟩ := ofOverrides_eq_ok well accepted
  obtain ⟨direct, built', same⟩ := exists_overridden built stage overrides id'
  obtain ⟨data, has⟩ := well.exists_stage lt
  have lt' : stage < direct.numStages := Nat.lt_of_lt_of_eq lt (congrArg Partition.numStages same).symm
  obtain ⟨data', has'⟩ := (Template.wellBuilt_of_build built').exists_stage lt'
  have replaces : core.options.rule = .replace := (Template.build_eq_ok built).2.1 ▸ replaces
  have meet := scatter_eq_overridden built built' same has has' holds
  have size : ∀ f, (data'.fields.get f).size = (data.fields.get f).size := fun f => by
    rw [← meet f, MergeRule.size_scatter]
  have fits : ∀ f (buffer : Array Binary64), buffer.size = (data.fields.get f).size →
      ((patched core stage patch).fillField core f).run buffer = .ok () (data'.fields.get f) := fun f buffer fits => by
    rw [run_fillField_fresh f (Template.run_fillField f has fits), replaces, meet f]
  refine ⟨direct, built', {
    field := fun f => ⟨_, ?_, fun buffer same => fits f buffer (same.trans (size f))⟩
    fillField := fun f buffer => ?_
    matrix := ⟨_, Template.matrix_eq has', mergedMatrix_eq_overridden built built' same has has' replaces inRange holds⟩ }⟩
  · rw [size f]
    exact (Template.stageCut_of_build built has).size_field f
  · cases checked : checkLength .copyBuffer (data.fields.get f).size buffer.size with
    | ok =>
      have here := checkLength_eq_ok.1 checked
      rw [fits f buffer here, Template.run_fillField f has' (here.trans (size f).symm)]
    | error e =>
      -- both refuse the buffer before anything is written to it
      rw [Template.run_fillField_misfit f has' ((size f).symm ▸ checked)]
      have anchor : (patched core stage patch).checkAnchor core = .ok () := if_pos rfl
      rw [Node.fillField, anchor, run_bind_ok (run_attempt_ok ..)]
      exact run_bind_error (Template.run_fillField_misfit f has checked)

/-- The overrides of the small program write a cell that is not stored and turn a stored one into a zero. -/
theorem agreesWith_interleaved : ∃ core node tally direct,
    Template.build ⟨0⟩ interleaved interleavedStages {} = .ok core ∧ ({} : Options).rule = .replace ∧
      ofOverrides core 1 interleavedOverrides = .ok (node, tally) ∧
      Template.build ⟨1⟩ (interleaved.overridden interleavedStages 1 interleavedOverrides) interleavedStages {} =
        .ok direct ∧ node.AgreesWith core 1 direct := by
  obtain ⟨core, node, tally, built, accepted⟩ := exists_interleaved
  obtain ⟨direct, built', agrees⟩ := agreesWith_overridden built rfl accepted ⟨1⟩
  exact ⟨core, node, tally, direct, built, rfl, accepted, built', agrees⟩

end Node
end Multistage
