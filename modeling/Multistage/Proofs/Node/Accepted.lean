import Multistage.Proofs.Node
import Multistage.Proofs.Objections
/-!
# When overrides are accepted

`ofOverrides_eq_ok_iff` says exactly when a list of overrides is made into a node, and into which: the stage has to exist, every
index to be in range, and the storage that is asked for to be available.  The writer is never in the way, because rows and
fields are written in the order that it wants.

Every index that is named has to exist, also in an override of another stage that would be dropped.  `objections` lists what
speaks against a list of overrides, and building a node from them fails with the first of the list
(`stopsAtFirst_ofOverrides`).

There is one patch that holds the overrides (`HoldsOverrides.unique`), so the node and the tally are known from there on.
-/
namespace Multistage

open Sparse

theorem RowWriter.reserve_eq_ok {limit items : Nat} {u : Unit} : reserve limit items = .ok u ↔ items < limit := by
  unfold reserve
  split <;> simp [*]

namespace Node

variable {limit : Nat} {core : Template} {stage : Nat} {overrides : Overrides}

/-- There is storage for the overrides, and for the starts of the rows. -/
structure HasRoom (limit : Nat) (core : Template) (stage : Nat) (overrides : Overrides) : Prop where
  entries : overrides.size < limit
  starts : (core.numbering .row).width stage + 1 < limit

/-- How many of the overrides are of the stage. -/
def ownedSize (core : Template) (stage : Nat) (overrides : Overrides) : Nat :=
  (ownCells core stage overrides.matrix).length +
    (Field.all.flatMap fun f => ownEntries core stage f (overrides.fields.get f)).length

/-- What became of the overrides that a patch was built from. -/
def tallyOf (core : Template) (stage : Nat) (overrides : Overrides) (patch : Patch) : Tally where
  estimate := overrides.size
  written := patch.size
  duplicates := ownedSize core stage overrides - patch.size

theorem HoldsOverrides.unique {p q : Patch} (hp : HoldsOverrides core stage overrides p)
    (hq : HoldsOverrides core stage overrides q) : p = q := by
  have numRows : p.numRows = q.numRows := hp.numRows.trans hq.numRows.symm
  refine Patch.ext_read numRows (fun i hi => ?_) fun f => ?_
  · rw [hp.row hi, hq.row (numRows ▸ hi)]
  · rw [hp.field f, hq.field f]

/-! ## Why overrides are refused -/

/-- What speaks against an override of a cell: first the row, then the column. -/
def cellObjections (core : Template) (c : Matrix.Cell) : List Error :=
  ifNot (c.row < core.numRows) (.indexOutOfRange .row c.row core.numRows) ++
    ifNot (c.col < core.numCols) (.indexOutOfRange .column c.col core.numCols)

/-- What speaks against an override of a row or a column. -/
def entryObjections (core : Template) (axis : Axis) (e : Entry) : List Error :=
  ifNot (e.index < (core.numbering axis).size) (.indexOutOfRange axis e.index (core.numbering axis).size)

/-- What speaks against the overrides of the fields, in storage order. -/
def fieldObjections (core : Template) (overrides : Overrides) (fields : List Field) : List Error :=
  fields.flatMap fun f => (overrides.fields.get f).flatMap (entryObjections core f.axis)

/-- What speaks against making overrides into a node of a stage. -/
def objections (core : Template) (stage : Nat) (overrides : Overrides) : List Error :=
  ifNot (stage < core.numStages) (.unknownStage stage core.numStages) ++
    (overrides.matrix.flatMap (cellObjections core) ++ fieldObjections core overrides Field.all)

theorem objections_eq_nil :
    objections core stage overrides = [] ↔ stage < core.numStages ∧ InRange core overrides := by
  simp only [objections, fieldObjections, cellObjections, entryObjections, List.append_eq_nil_iff,
    List.flatMap_eq_nil_iff, ifNot_eq_nil, Field.mem_all, true_implies]
  constructor
  · rintro ⟨lt, cells, fields⟩
    exact ⟨lt, fun c hc => (cells c hc).1, fun c hc => (cells c hc).2, fields⟩
  · rintro ⟨lt, inRange⟩
    exact ⟨lt, fun c hc => ⟨inRange.rows c hc, inRange.cols c hc⟩, inRange.fields⟩

/-- Only a stage that does not exist is objected to, or an index that does not. -/
theorem mem_objections {e : Error} (h : e ∈ objections core stage overrides) :
    e = .unknownStage stage core.numStages ∨ ∃ axis index count, e = .indexOutOfRange axis index count ∧ count ≤ index := by
  simp only [objections, fieldObjections, cellObjections, entryObjections, List.mem_append, List.mem_flatMap,
    mem_ifNot, Nat.not_lt] at h
  rcases h with ⟨-, rfl⟩ | ⟨c, -, ⟨beyond, rfl⟩ | ⟨beyond, rfl⟩⟩ | ⟨f, -, d, -, beyond, rfl⟩
  · exact .inl rfl
  · exact .inr ⟨_, _, _, rfl, beyond⟩
  · exact .inr ⟨_, _, _, rfl, beyond⟩
  · exact .inr ⟨_, _, _, rfl, beyond⟩

theorem stopsAtFirst_checkCells (core : Template) (cells : List Matrix.Cell) :
    StopsAtFirst (checkCells core cells) (cells.flatMap (cellObjections core)) := by
  apply StopsAtFirst.forM
  intro c
  exact (stopsAtFirst_checkIndex .row c.row core.numRows).bind fun _ _ =>
    stopsAtFirst_checkIndex .column c.col core.numCols

theorem stopsAtFirst_checkEntries (core : Template) (axis : Axis) (entries : List Entry) :
    StopsAtFirst (checkEntries core axis entries) (entries.flatMap (entryObjections core axis)) := by
  apply StopsAtFirst.forM
  intro e
  exact stopsAtFirst_checkIndex axis e.index (core.numbering axis).size

/-- Fields that are written in storage order are all that is objected to while they are written. -/
theorem stopsAtFirst_foldlM_writeField : ∀ (fields : List Field) (k : Nat) (w : FieldWriter),
    fields.map Field.rank = List.range' k fields.length → w.parts.count = w.numRows + k →
      StopsAtFirst (fields.foldlM (writeField core stage overrides) w) (fieldObjections core overrides fields)
  | [], _, w, _, _ => .clear w
  | f :: fields, k, w, ranks, count => by
    rw [List.map_cons, List.length_cons, List.range'_succ, List.cons.injEq] at ranks
    obtain ⟨rank, ranks⟩ := ranks
    obtain ⟨w₁, written, numRows, closed⟩ := w.exists_write (fieldWrites core stage overrides f)
      (show w.parts.count ≤ w.numRows + f.rank by omega)
    have count₁ : w₁.parts.count = w₁.numRows + (k + 1) := by
      rw [← Parts.length_closed, closed, List.length_append, List.length_append, Parts.length_closed,
        List.length_replicate, List.length_singleton, numRows]
      omega
    have field : StopsAtFirst (writeField core stage overrides w f)
        ((overrides.fields.get f).flatMap (entryObjections core f.axis)) := by
      have checked := (stopsAtFirst_checkEntries core f.axis (overrides.fields.get f)).bind (l := [])
        (f := fun _ => w.write f (fieldWrites core stage overrides f)) fun _ _ => .of_ok written
      rwa [List.append_nil] at checked
    rw [List.foldlM_cons]
    refine field.bind fun w₂ one => ?_
    -- where a field is written, it is written to the writer that was found
    obtain ⟨_, -, written₂⟩ := bind_eq_ok.1 one
    obtain rfl : w₁ = w₂ := Except.ok.inj (written.symm.trans written₂)
    exact stopsAtFirst_foldlM_writeField fields (k + 1) w₁ ranks count₁

/-- **Building a node fails with the first objection**, and goes through if there is none. -/
theorem stopsAtFirst_ofOverrides (well : core.WellBuilt) (room : HasRoom limit core stage overrides) :
    StopsAtFirst (ofOverridesBy limit core stage overrides) (objections core stage overrides) := by
  refine (stopsAtFirst_checkStage stage core.numStages).bind fun _ there => ?_
  have lt : stage < core.numStages := checkStage_eq_ok.1 there
  have rowCount : core.partition.rows.count stage = .ok ((core.numbering .row).width stage) :=
    Numbering.count_eq_ok.2 ⟨well.numStages_numbering .row ▸ lt, rfl⟩
  have reserved : RowWriter.withCapacityBy limit overrides.size ((core.numbering .row).width stage) = .ok
      { parts := .empty, numRows := (core.numbering .row).width stage } :=
    bind_eq_ok.2 ⟨(), RowWriter.reserve_eq_ok.2 room.entries, bind_eq_ok.2
      ⟨(), RowWriter.reserve_eq_ok.2 room.starts, rfl⟩⟩
  obtain ⟨w, rows, numRows, closed⟩ := toFields_rowsWritten ((core.numbering .row).width stage)
    (ownCells core stage overrides.matrix)
  have count : w.parts.count = w.numRows := by rw [← Parts.length_closed, closed, numRows]; simp
  refine .ok_bind rowCount (.ok_bind reserved ((stopsAtFirst_checkCells core overrides.matrix).bind fun _ _ => ?_))
  refine .ok_bind rows ?_
  have written : StopsAtFirst (Field.all.foldlM (writeField core stage overrides) w)
      (fieldObjections core overrides Field.all) := stopsAtFirst_foldlM_writeField Field.all 0 w rfl count
  rw [← List.append_nil (fieldObjections core overrides Field.all)]
  refine written.bind fun w' _ => ?_
  have node : anchored core stage (.scenario w'.finish) = .ok (patched core stage w'.finish) :=
    (anchored_eq_ok well).2 ⟨lt, rfl⟩
  exact .ok_bind node (.clear _)

/-! ## When they are accepted -/

/-- Overrides in range are made into a node, if there is room for them. -/
theorem exists_ofOverrides (well : core.WellBuilt) (lt : stage < core.numStages) (inRange : InRange core overrides)
    (room : HasRoom limit core stage overrides) :
    ∃ node tally, ofOverridesBy limit core stage overrides = .ok (node, tally) := by
  obtain ⟨⟨node, tally⟩, made⟩ := (stopsAtFirst_ofOverrides well room).ok_iff.2 (objections_eq_nil.2 ⟨lt, inRange⟩)
  exact ⟨node, tally, made⟩

/-- **Which overrides are accepted, and what they are made into.** -/
theorem ofOverrides_eq_ok_iff (well : core.WellBuilt) {node : Node} {tally : Tally} :
    ofOverridesBy limit core stage overrides = .ok (node, tally) ↔
      stage < core.numStages ∧ InRange core overrides ∧ HasRoom limit core stage overrides ∧
        ∃ patch, HoldsOverrides core stage overrides patch ∧ node = patched core stage patch ∧
          tally = tallyOf core stage overrides patch := by
  have accepted : ∀ {node : Node} {tally : Tally}, ofOverridesBy limit core stage overrides = .ok (node, tally) →
      stage < core.numStages ∧ InRange core overrides ∧ HasRoom limit core stage overrides ∧
        ∃ patch, HoldsOverrides core stage overrides patch ∧ node = patched core stage patch ∧
          tally = tallyOf core stage overrides patch := fun {node tally} h => by
    obtain ⟨lt, inRange, patch, same, holds⟩ := ofOverrides_eq_ok well h
    simp only [ofOverridesBy, RowWriter.withCapacityBy, bind_eq_ok, pure_eq_ok, RowWriter.reserve_eq_ok,
      Numbering.count_eq_ok] at h
    obtain ⟨_, _, _, ⟨_, rfl⟩, _, ⟨_, entries, _, starts, _⟩, _, _, _, _, w', _, n, hn, hn'⟩ := h
    obtain ⟨rfl, rfl⟩ := Prod.mk.inj hn'
    -- the node is anchored once, so the patch that was counted is the one that holds the overrides
    obtain ⟨-, rfl⟩ := (anchored_eq_ok well).1 hn
    obtain rfl : w'.finish = patch := Content.scenario.inj (congrArg Node.content same)
    exact ⟨lt, inRange, ⟨entries, starts⟩, _, holds, rfl, rfl⟩
  refine ⟨accepted, ?_⟩
  rintro ⟨lt, inRange, room, patch, holds, rfl, rfl⟩
  obtain ⟨node, tally, made⟩ := exists_ofOverrides well lt inRange room
  obtain ⟨-, -, -, patch', holds', rfl, rfl⟩ := accepted made
  rw [made, holds.unique holds']

end Node
end Multistage
