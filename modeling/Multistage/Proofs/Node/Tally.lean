import Mathlib.Data.List.Dedup
import Multistage.Proofs.Node.Decoded
import Multistage.Proofs.Runs
/-!
# What becomes of overrides

Every override names a position: a cell of the matrix, or an index of a field.  Of the overrides of a stage one for each
position is stored and the others are counted as duplicates; those of other stages are dropped (`accounted_ofOverrides`).  The
positions of what is stored are read off the node (`Node.mem_decode_positions`).

The duplicates are the overrides that are passed over when runs of one position are collapsed, the cells row by row and each
field for itself.  Over all stages every override is stored or counted once (`SharedOut`), since its position has one owner.
-/
namespace Multistage

open Sparse

namespace Overrides

/-- What an override is of. -/
inductive Position where
  | cell (row col : Nat)
  | value (f : Field) (index : Nat)
deriving DecidableEq

/-- The stage that owns a position; a cell belongs to the stage of its row. -/
def Position.stage? (core : Template) : Position → Option Nat
  | cell row _ => (core.numbering .row).stageOf[row]?
  | value f index => (core.numbering f.axis).stageOf[index]?

def cellAt (c : Matrix.Cell) : Position := .cell c.row c.col

def valueAt (f : Field) (e : Entry) : Position := .value f e.index

/-- The positions of all overrides, named as often as they are. -/
def positions (o : Overrides) : List Position :=
  o.matrix.map cellAt ++ Field.all.flatMap fun f => (o.fields.get f).map (valueAt f)

def owned (core : Template) (stage : Nat) (o : Overrides) : List Position :=
  o.positions.filter fun p => p.stage? core = some stage

def foreign (core : Template) (stage : Nat) (o : Overrides) : List Position :=
  o.positions.filter fun p => p.stage? core ≠ some stage

variable {core : Template} {stage : Nat} {o : Overrides}

theorem length_positions (o : Overrides) : o.positions.length = o.size := by
  rw [positions, size, FieldTable.toList, List.length_append, List.length_map, List.flatMap_def, length_flatten_map,
    length_flatten_map]
  simp only [List.length_map]

theorem cell_mem_positions {row col : Nat} :
    .cell row col ∈ o.positions ↔ ∃ c ∈ o.matrix, c.row = row ∧ c.col = col := by
  simp [positions, cellAt, valueAt]

theorem value_mem_positions {f : Field} {index : Nat} :
    .value f index ∈ o.positions ↔ ∃ e ∈ o.fields.get f, e.index = index := by
  simp [positions, cellAt, valueAt, Field.mem_all]

theorem length_owned_add (core : Template) (stage : Nat) (o : Overrides) :
    (o.owned core stage).length + (o.foreign core stage).length = o.size := by
  rw [← length_positions, owned, foreign]
  induction o.positions with
  | nil => rfl
  | cons p l ih =>
    by_cases own : p.stage? core = some stage
    · simp [own] at ih ⊢
      omega
    · simp [own] at ih ⊢
      omega

theorem length_owned (core : Template) (stage : Nat) (o : Overrides) :
    (o.owned core stage).length = Node.ownedSize core stage o := by
  have cells : (o.matrix.map cellAt).filter (fun p => p.stage? core = some stage) =
      (o.matrix.filter fun c => Node.owns core.partition.rows stage c.row).map cellAt := by
    rw [List.filter_map]
    rfl
  have values : ∀ f, ((o.fields.get f).map (valueAt f)).filter (fun p => p.stage? core = some stage) =
      ((o.fields.get f).filter fun e => Node.owns (core.partition.axis f.axis) stage e.index).map (valueAt f) := by
    intro f
    rw [List.filter_map]
    rfl
  rw [owned, positions, List.filter_append, cells, List.filter_flatMap, Node.ownedSize, Node.ownCells]
  simp only [values, Node.ownEntries, List.length_append, List.length_map, List.flatMap_def, length_flatten_map]

end Overrides

namespace Node

open Overrides

variable {limit : Nat} {core : Template} {stage : Nat} {overrides : Overrides} {patch : Patch} {node : Node}
  {tally : Tally}

/-! ## The positions that are stored -/

section Stored

variable (well : core.WellBuilt) (lt : stage < core.numStages) (inRange : InRange core overrides)
  (holds : HoldsOverrides core stage overrides patch)

include well lt inRange holds

theorem cell_mem_decode {c : Matrix.Cell} (hc : c ∈ overrides.matrix)
    (mine : (core.numbering .row).stageOf[c.row]? = some stage) :
    ∃ d ∈ (decode core stage patch).matrix, d.row = c.row ∧ d.col = c.col := by
  have rows := well.coherent .row
  have cols := well.coherent .column
  have hi : (core.numbering .row).localPlace stage c.row < (core.numbering .row).width stage := rows.localPlace_lt mine
  have hj : (core.numbering .column).place c.col < core.numCols := cols.place_lt (inRange.cols c hc)
  have row : (core.numbering .row).member stage ((core.numbering .row).localPlace stage c.row) = c.row :=
    rows.member_localPlace mine
  have col : (core.numbering .column).origin ((core.numbering .column).place c.col) = c.col :=
    cols.origin_place (inRange.cols c hc)
  obtain ⟨v, said⟩ : ∃ v, overrides.cell? c.row c.col = some v := by
    rw [cell?_eq_lastAt]
    exact exists_lastAt hc rfl
  have stored := lookup_rowWrites well inRange lt hi hj
  rw [row, col, said] at stored
  have held := mem_of_lookup stored
  rw [← holds.row (holds.numRows ▸ hi)] at held
  exact ⟨_, mem_decode.2 ⟨_, _, holds.numRows ▸ hi, held, rfl⟩, row, col⟩

omit lt inRange in
theorem value_mem_decode (f : Field) {e : Entry} (he : e ∈ overrides.fields.get f)
    (mine : (core.numbering f.axis).stageOf[e.index]? = some stage) :
    ∃ d ∈ (decode core stage patch).fields.get f, d.index = e.index := by
  obtain ⟨v, said⟩ : ∃ v, (overrides.value? f e.index).map (core.options.stored f) = some v := by
    rw [value?_eq_lastAt]
    exact exists_lastAt he rfl
  have stored : lookup (fieldWrites core stage overrides f) _ = _ := lookup_fieldWrites well.coherent f mine
  rw [said] at stored
  have held := mem_of_lookup stored
  rw [← holds.field f] at held
  rw [get_decode]
  exact ⟨_, List.mem_map_of_mem held, (well.coherent f.axis).member_localPlace mine⟩

/-- **What is stored is of the positions that the stage owns**, and something is stored of each of them. -/
theorem mem_decode_positions {p : Position} :
    p ∈ (decode core stage patch).positions ↔ p ∈ overrides.owned core stage := by
  rw [owned, List.mem_filter, decide_eq_true_eq]
  cases p with
  | cell row col =>
    rw [cell_mem_positions, cell_mem_positions, Position.stage?]
    constructor
    · rintro ⟨c, hc, rfl, rfl⟩
      obtain ⟨said, mine⟩ := said_of_mem_decode well inRange holds hc
      exact ⟨⟨c, said, rfl, rfl⟩, mine⟩
    · rintro ⟨⟨c, hc, rfl, rfl⟩, mine⟩
      exact cell_mem_decode well lt inRange holds hc mine
  | value f index =>
    rw [value_mem_positions, value_mem_positions, Position.stage?]
    constructor
    · rintro ⟨e, he, rfl⟩
      obtain ⟨⟨d, hd, same, -⟩, mine⟩ := said_of_mem_decode_field well holds f he
      exact ⟨⟨d, hd, same⟩, mine⟩
    · rintro ⟨⟨e, he, rfl⟩, mine⟩
      exact value_mem_decode well holds f he mine

theorem nodup_decode_positions : (decode core stage patch).positions.Nodup := by
  have cells : ((decode core stage patch).matrix.map cellAt).Nodup := by
    have places := nodup_decode well lt inRange holds
    rw [List.Nodup, List.pairwise_map] at places ⊢
    refine places.imp fun apart same => apart ?_
    injection same with row col
    exact Prod.ext row col
  have values : ∀ f, (((decode core stage patch).fields.get f).map (valueAt f)).Nodup := by
    intro f
    have indices := nodup_decode_field well lt holds f
    rw [List.Nodup, List.pairwise_map] at indices ⊢
    exact indices.imp fun apart same => apart (by injection same)
  rw [positions, List.nodup_append]
  refine ⟨cells, ?_, ?_⟩
  · rw [List.nodup_flatMap]
    refine ⟨fun f _ => values f, ?_⟩
    have fields : Field.all.Nodup := by decide
    refine fields.imp fun {f g} other => ?_
    simp only [Function.onFun, List.disjoint_left, List.mem_map, valueAt]
    rintro _ ⟨d, -, rfl⟩ ⟨e, -, same⟩
    injection same with field
    exact other field.symm
  · intro p hp q hq same
    obtain ⟨c, -, rfl⟩ := List.mem_map.1 hp
    simp only [List.mem_flatMap, List.mem_map] at hq
    obtain ⟨f, -, e, -, rfl⟩ := hq
    cases same

/-- **One entry is stored for each position that the stage owns.** -/
theorem size_eq_dedup : patch.size = (overrides.owned core stage).dedup.length := by
  have same : (decode core stage patch).positions.Perm (overrides.owned core stage).dedup := by
    rw [List.perm_ext_iff_of_nodup (nodup_decode_positions well lt inRange holds) (List.nodup_dedup _)]
    intro p
    rw [List.mem_dedup, mem_decode_positions well lt inRange holds]
  rw [← same.length_eq, length_positions, size_decode]

theorem size_le_ownedSize : patch.size ≤ ownedSize core stage overrides := by
  rw [size_eq_dedup well lt inRange holds, ← length_owned]
  exact (List.dedup_sublist _).length_le

end Stored

/-! ## The duplicates, counted run by run -/

/-- A sweep over the cells of a stage. -/
def sweptCells (core : Template) (stage : Nat) (overrides : Overrides) : Swept :=
  sweep (List.range ((core.numbering .row).width stage)) (sortedCells (ownCells core stage overrides.matrix))

/-- How many entries of a field are passed over. -/
def passedOver (core : Template) (stage : Nat) (overrides : Overrides) (f : Field) : Nat :=
  (collapse (sorted (ownEntries core stage f (overrides.fields.get f)))).2

theorem ownCells_lt (well : core.WellBuilt) (stage : Nat) (overrides : Overrides) :
    ∀ c ∈ ownCells core stage overrides.matrix, c.1 < (core.numbering .row).width stage := by
  intro c hc
  obtain ⟨d, hd, rfl⟩ := List.mem_map.1 hc
  have mine : (core.numbering .row).stageOf[d.row]? = some stage := of_decide_eq_true (List.mem_filter.1 hd).2
  exact (well.coherent .row).localPlace_lt mine

/-- **The runs collapse to what is stored**, no cell is left over, and everything of the stage is stored or passed over. -/
theorem swept_of_holds (well : core.WellBuilt) (holds : HoldsOverrides core stage overrides patch) :
    (sweptCells core stage overrides).lines = (List.range patch.numRows).map patch.row ∧
      (sweptCells core stage overrides).left = [] ∧
      patch.size + ((sweptCells core stage overrides).passed + total (Field.all.map (passedOver core stage overrides))) =
        ownedSize core stage overrides := by
  obtain ⟨lines, kept, left⟩ := sweep_sortedCells (ownCells_lt well stage overrides)
  have rows : (List.range patch.numRows).map patch.row = (List.range ((core.numbering .row).width stage)).map fun i =>
      lastWrites (itemsAt i (ownCells core stage overrides.matrix)) := by
    rw [← holds.numRows]
    exact List.map_congr_left fun i hi => holds.row (List.mem_range.1 hi)
  have fields : (Field.all.map patch.field).flatten.length + total (Field.all.map (passedOver core stage overrides)) =
      (Field.all.flatMap fun f => ownEntries core stage f (overrides.fields.get f)).length := by
    rw [List.flatMap_def, length_flatten_map, length_flatten_map, ← total_map_add]
    congr 1
    refine List.map_congr_left fun f _ => ?_
    rw [holds.field f]
    exact (collapse_sorted _).2
  refine ⟨lines.trans rows.symm, left, ?_⟩
  rw [Patch.size, ← Array.length_toList, patch.toList_items, List.length_append, rows, ownedSize, ← fields, ← kept,
    sweptCells]
  omega

/-! ## Accounts -/

/-- Every override is stored, a duplicate, or of another stage; and each of the three is counted. -/
structure Accounted (core : Template) (stage : Nat) (overrides : Overrides) (node : Node) (tally : Tally) : Prop where
  estimate : tally.estimate = overrides.size
  /-- So the difference that is the number of dropped overrides does not go below zero. -/
  conserved : tally.written + tally.duplicates + (overrides.foreign core stage).length = tally.estimate
  dropped : tally.dropped = (overrides.foreign core stage).length
  stored : tally.written = node.size
  parts : ∃ rows sizes, node.storedSize core = .ok rows ∧
    (∀ f, ∃ v, node.fieldOverrides f = .ok (some v) ∧ v.size = sizes f) ∧
    tally.written = rows + total (Field.all.map sizes)
  distinct : tally.written = (overrides.owned core stage).dedup.length
  written_le : tally.written ≤ overrides.size
  duplicates : tally.duplicates + (overrides.owned core stage).dedup.length = (overrides.owned core stage).length
  /-- The duplicates are the entries that are passed over when runs of one position are collapsed. -/
  counted : tally.duplicates =
    (sweptCells core stage overrides).passed + total (Field.all.map (passedOver core stage overrides))
  consumed : (sweptCells core stage overrides).left = []

/-- All stages together take every override once. -/
structure SharedOut (core : Template) (overrides : Overrides) : Prop where
  owner : ∀ p ∈ overrides.positions, ∃ stage, p.stage? core = some stage ∧ stage < core.numStages
  accepted : ∀ limit stage, stage < core.numStages → HasRoom limit core stage overrides →
    ∃ node tally, ofOverridesBy limit core stage overrides = .ok (node, tally)
  total : ∀ tally : Nat → Tally,
    (∀ stage, stage < core.numStages →
      ∃ limit node, ofOverridesBy limit core stage overrides = .ok (node, tally stage)) →
      total ((List.range core.numStages).map fun stage => (tally stage).written + (tally stage).duplicates) = overrides.size

theorem accounted_of_holds (well : core.WellBuilt) (lt : stage < core.numStages) (inRange : InRange core overrides)
    (holds : HoldsOverrides core stage overrides patch) :
    Accounted core stage overrides (patched core stage patch) (tallyOf core stage overrides patch) := by
  have all := length_owned_add core stage overrides
  have owned := length_owned core stage overrides
  have distinct := size_eq_dedup well lt inRange holds
  have le := size_le_ownedSize well lt inRange holds
  obtain ⟨-, left, passed⟩ := swept_of_holds well holds
  exact {
    estimate := rfl
    conserved := by
      show patch.size + (ownedSize core stage overrides - patch.size) + _ = overrides.size
      omega
    dropped := by
      show overrides.size - patch.size - (ownedSize core stage overrides - patch.size) = _
      omega
    stored := rfl
    parts := by
      have stored := (wellStored_patched well lt inRange holds).fieldOverrides
      have anchor : (patched core stage patch).checkAnchor core = .ok () := if_pos rfl
      refine ⟨patch.matrixSize, fun f => (patch.field f).length, ?_, fun f => ?_, ?_⟩
      · rw [storedSize, anchor]
        rfl
      · obtain ⟨v, found, -, entries⟩ := stored f
        exact ⟨v, found, by rw [SparseVector.size, entries]⟩
      · show patch.size = _
        simp only [patch.size_eq, Field.all, List.map_cons, List.map_nil, total_cons, total_nil]
        omega
    distinct
    written_le := by
      show patch.size ≤ _
      omega
    duplicates := by
      show ownedSize core stage overrides - patch.size + _ = _
      omega
    counted := by
      show ownedSize core stage overrides - patch.size = _
      omega
    consumed := left }

/-- Every position has an owner, whose stage exists. -/
theorem exists_stage? (well : core.WellBuilt) (inRange : InRange core overrides) :
    ∀ p ∈ overrides.positions, ∃ stage, p.stage? core = some stage ∧ stage < core.numStages := by
  have owner : ∀ axis i, i < (core.numbering axis).size →
      ∃ stage, (core.numbering axis).stageOf[i]? = some stage ∧ stage < core.numStages := by
    intro axis i hi
    have there : i < (core.numbering axis).stageOf.size := (well.coherent axis).size_stageOf ▸ hi
    have found := Array.getElem?_eq_getElem there
    exact ⟨_, found, well.numStages_numbering axis ▸ (well.coherent axis).stage_lt found⟩
  intro p hp
  cases p with
  | cell row col =>
    obtain ⟨c, hc, rfl, rfl⟩ := cell_mem_positions.1 hp
    exact owner .row c.row (inRange.rows c hc)
  | value f index =>
    obtain ⟨e, he, rfl⟩ := value_mem_positions.1 hp
    exact owner f.axis e.index (inRange.fields f e he)

theorem sharedOut_of_inRange (well : core.WellBuilt) (inRange : InRange core overrides) : SharedOut core overrides where
  owner := exists_stage? well inRange
  accepted limit stage lt room := exists_ofOverrides well lt inRange room
  total tally made := by
    have share : ∀ stage ∈ List.range core.numStages, (tally stage).written + (tally stage).duplicates =
        (overrides.positions.filter fun p => p.stage? core = some stage).length := by
      intro stage hs
      obtain ⟨limit, node, accepted⟩ := made stage (List.mem_range.1 hs)
      obtain ⟨lt, -, -, patch, holds, -, counts⟩ := (ofOverrides_eq_ok_iff well).1 accepted
      have account := accounted_of_holds well lt inRange holds
      rw [← counts] at account
      have distinct := account.distinct
      have duplicates := account.duplicates
      show _ = (overrides.owned core stage).length
      omega
    rw [List.map_congr_left share, total_parts (exists_stage? well inRange), length_positions]

/-- **What becomes of overrides is accounted for**: in a stage that they are made into a node for, and over all stages. -/
theorem accounted_ofOverrides {id : TemplateId} {snapshot : Snapshot} {assignment : Assignment} {options : Options}
    (built : Template.build id snapshot assignment options = .ok core)
    (accepted : ofOverridesBy limit core stage overrides = .ok (node, tally)) :
    Accounted core stage overrides node tally ∧ SharedOut core overrides := by
  have well := Template.wellBuilt_of_build built
  obtain ⟨lt, inRange, -, patch, holds, rfl, rfl⟩ := (ofOverrides_eq_ok_iff well).1 accepted
  exact ⟨accounted_of_holds well lt inRange holds, sharedOut_of_inRange well inRange⟩

theorem accounted_interleaved : ∃ core node tally, Template.build ⟨0⟩ interleaved interleavedStages {} = .ok core ∧
    ofOverrides core 1 interleavedOverrides = .ok (node, tally) ∧ tally = ⟨8, 4, 2⟩ ∧ tally.dropped = 2 ∧
    Accounted core 1 interleavedOverrides node tally ∧ SharedOut core interleavedOverrides := by
  obtain ⟨core, node, tally, built, accepted⟩ := exists_interleaved
  have counts : decide (tally = ⟨8, 4, 2⟩) = true :=
    of_interleaved built accepted (fun r => decide (r.2 = ⟨8, 4, 2⟩)) (by decide +kernel)
  obtain rfl := of_decide_eq_true counts
  exact ⟨core, node, _, built, accepted, rfl, rfl, accounted_ofOverrides built accepted⟩

end Node
end Multistage
