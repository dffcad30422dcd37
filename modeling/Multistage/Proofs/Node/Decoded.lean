import Multistage.Proofs.Node.Accepted
import Multistage.Proofs.Node.Safe
import Multistage.Proofs.Patch.Program
import Multistage.Proofs.Runs
/-!
# Reading a node back into overrides

What a scenario node stores can be said again in external numbers (`decode`).  Built from that, in whatever order it is given, a
node stores what the first one stored (`reencoded_decode`): an index of a stage and its place are translated back and forth,
no position is named twice, and what is stored as a bound stays as it is when it is normalized again.
-/
namespace Multistage

open Sparse

section Lengths

variable {ι α β : Type} {g : ι → List α} {h : ι → List β}

theorem length_flatten_mono (le : ∀ x, (g x).length ≤ (h x).length) : ∀ l : List ι,
    (l.map g).flatten.length ≤ (l.map h).flatten.length
  | [] => Nat.le_refl 0
  | x :: l => by
    rw [List.map_cons, List.map_cons, List.flatten_cons, List.flatten_cons, List.length_append, List.length_append]
    exact Nat.add_le_add (le x) (length_flatten_mono le l)

theorem length_flatten_congr (same : ∀ x, (g x).length = (h x).length) (l : List ι) :
    (l.map g).flatten.length = (l.map h).flatten.length :=
  Nat.le_antisymm (length_flatten_mono (fun x => Nat.le_of_eq (same x)) l)
    (length_flatten_mono (fun x => Nat.le_of_eq (same x).symm) l)

end Lengths

/-! ## Writes without repetitions -/

theorem itemsAt_map {α : Type} (k n : Nat) : ∀ xs : List α, itemsAt k (xs.map fun x => (n, x)) = if n = k then xs else []
  | [] => (ite_self _).symm
  | x :: xs => by
    rw [List.map_cons, itemsAt_cons, itemsAt_map k n xs]
    by_cases h : n = k
    · rw [if_pos h, if_pos h, if_pos h]
    · rw [if_neg h, if_neg h, if_neg h]

/-- The items of one number, out of lists that are laid end to end under their numbers. -/
theorem itemsAt_flatMap {α : Type} (part : Nat → List α) (k : Nat) : ∀ n : Nat,
    itemsAt k ((List.range n).flatMap fun i => (part i).map fun x => (i, x)) = if k < n then part k else []
  | 0 => rfl
  | n + 1 => by
    have split : itemsAt k ((List.range (n + 1)).flatMap fun i => (part i).map fun x => (i, x)) =
        itemsAt k ((List.range n).flatMap fun i => (part i).map fun x => (i, x)) ++
          itemsAt k ((part n).map fun x => (n, x)) := by
      rw [List.range_succ, List.flatMap_append, List.flatMap_singleton]
      exact List.filterMap_append
    rw [split, itemsAt_flatMap part k n, itemsAt_map]
    rcases Nat.lt_trichotomy k n with lt | rfl | gt
    · rw [if_pos lt, if_neg (by omega), if_pos (by omega), List.append_nil]
    · rw [if_neg (Nat.lt_irrefl k), if_pos rfl, if_pos (Nat.lt_succ_self k), List.nil_append]
    · rw [if_neg (by omega), if_neg (by omega), if_neg (by omega), List.append_nil]

namespace Numbering.Coherent

variable {n : Numbering} (h : n.Coherent)
include h

/-- The member at a place of a stage is found under its internal number, counted from the start of the stage. -/
theorem external_member {t p : Nat} (ht : t < n.numStages) (hp : p < n.width t) :
    n.start t = .ok (n.first t) ∧ n.external (n.first t + p) = .ok (n.member t p) := by
  have inside : checkIndex n.axis (n.first t + p) n.size = .ok () := checkIndex_eq_ok.2 (h.first_add_lt ht hp)
  refine ⟨?_, bind_eq_ok.2 ⟨(), inside, rfl⟩⟩
  rw [start, h.getElem?_starts (Nat.le_of_lt ht)]

end Numbering.Coherent

/-- The same overrides in another order. -/
structure Overrides.Reorders (o o' : Overrides) : Prop where
  matrix : o.matrix.Perm o'.matrix
  field : ∀ f, (o.fields.get f).Perm (o'.fields.get f)

namespace Node

/-! ## Saying what is stored -/

/-- An entry of a row, by the external numbers of the row and the column. -/
def externalCell (core : Template) (stage row : Nat) (e : Entry) : Matrix.Cell :=
  ⟨(core.numbering .row).member stage row, (core.numbering .column).origin e.index, e.value⟩

/-- An entry of a field, by the external number of its row or column. -/
def externalEntry (core : Template) (stage : Nat) (f : Field) (e : Entry) : Entry :=
  ⟨(core.numbering f.axis).member stage e.index, e.value⟩

/-- The overrides that name every stored entry once, row by row and field by field. -/
def decode (core : Template) (stage : Nat) (patch : Patch) : Overrides where
  matrix := (List.range patch.numRows).flatMap fun i => (patch.row i).map (externalCell core stage i)
  fields := .ofFn fun f => (patch.field f).map (externalEntry core stage f)

variable {limit : Nat} {core : Template} {stage : Nat} {patch : Patch} {overrides o : Overrides}

theorem mem_decode {c : Matrix.Cell} : c ∈ (decode core stage patch).matrix ↔
    ∃ i e, i < patch.numRows ∧ e ∈ patch.row i ∧ externalCell core stage i e = c := by
  simp only [decode, List.mem_flatMap, List.mem_map, List.mem_range]
  exact ⟨fun ⟨i, hi, e, he⟩ => ⟨i, e, hi, he⟩, fun ⟨i, e, hi, he⟩ => ⟨i, hi, e, he⟩⟩

theorem get_decode (f : Field) : (decode core stage patch).fields.get f = (patch.field f).map (externalEntry core stage f) :=
  FieldTable.get_ofFn _ f

/-- As many overrides as entries are stored. -/
theorem size_decode : (decode core stage patch).size = patch.size := by
  have rows : (decode core stage patch).matrix.length = ((List.range patch.numRows).map patch.row).flatten.length := by
    rw [decode, List.flatMap_def]
    exact length_flatten_congr (fun _ => List.length_map _) _
  have fields : (Field.all.map (decode core stage patch).fields.get).flatten.length =
      (Field.all.map patch.field).flatten.length :=
    length_flatten_congr (fun f => by rw [get_decode, List.length_map]) _
  rw [Overrides.size, FieldTable.toList, rows, fields, Patch.size, ← Array.length_toList, patch.toList_items,
    List.length_append]

section Stored

variable (well : core.WellBuilt) (lt : stage < core.numStages) (inRange : InRange core overrides)
  (holds : HoldsOverrides core stage overrides patch)

include well inRange holds

/-- What is said of a cell again was said before, and the cell is in a row of the stage. -/
theorem said_of_mem_decode {c : Matrix.Cell} (hc : c ∈ (decode core stage patch).matrix) :
    c ∈ overrides.matrix ∧ (core.numbering .row).stageOf[c.row]? = some stage := by
  obtain ⟨i, e, hi, he, rfl⟩ := mem_decode.1 hc
  rw [holds.row hi] at he
  obtain ⟨d, hd, same⟩ := List.mem_map.1 (mem_itemsAt.1 (mem_of_mem_lastWrites he))
  obtain ⟨rfl, rfl⟩ := Prod.mk.inj same
  obtain ⟨hd, owned⟩ := List.mem_filter.1 hd
  have owned : (core.numbering .row).stageOf[d.row]? = some stage := of_decide_eq_true owned
  have cell : externalCell core stage ((core.numbering .row).localPlace stage d.row)
      ⟨(core.numbering .column).place d.col, d.value⟩ = d := by
    rw [externalCell, (well.coherent .row).member_localPlace owned, (well.coherent .column).origin_place (inRange.cols d hd)]
  exact cell.symm ▸ ⟨hd, owned⟩

omit inRange in
/-- What is said of a field again is of an index of the stage that something was said of before. -/
theorem said_of_mem_decode_field (f : Field) {e : Entry} (he : e ∈ (decode core stage patch).fields.get f) :
    (∃ d ∈ overrides.fields.get f, d.index = e.index ∧ e.value = core.options.stored f d.value) ∧
      (core.numbering f.axis).stageOf[e.index]? = some stage := by
  rw [get_decode] at he
  obtain ⟨x, hx, rfl⟩ := List.mem_map.1 he
  rw [holds.field f] at hx
  obtain ⟨d, hd, rfl⟩ := List.mem_map.1 (mem_of_mem_lastWrites hx)
  obtain ⟨hd, owned⟩ := List.mem_filter.1 hd
  have owned : (core.numbering f.axis).stageOf[d.index]? = some stage := of_decide_eq_true owned
  have index : (core.numbering f.axis).member stage ((core.numbering f.axis).localPlace stage d.index) = d.index :=
    (well.coherent f.axis).member_localPlace owned
  exact ⟨⟨d, hd, index.symm, rfl⟩, (congrArg ((core.numbering f.axis).stageOf[·]?) index).trans owned⟩

include lt

/-- **No cell is named twice.** -/
theorem nodup_decode : ((decode core stage patch).matrix.map position).Nodup := by
  have rows := well.coherent .row
  have cols := well.coherent .column
  have stageExists : stage < (core.numbering .row).numStages := well.numStages_numbering .row ▸ lt
  rw [List.Nodup, List.pairwise_map, decode, List.pairwise_flatMap]
  refine ⟨fun i hi => ?_, List.pairwise_lt_range.imp_of_mem fun {i k} hi hk apart => ?_⟩
  · have line := holds.isLine_row well inRange (List.mem_range.1 hi)
    rw [List.pairwise_map]
    refine line.ascending.imp_of_mem fun {d e} hd he apart same => ?_
    have columns := congrArg (core.numbering .column).place (congrArg Prod.snd same)
    rw [position, position, externalCell, externalCell, cols.place_origin (line.bounded d hd),
      cols.place_origin (line.bounded e he)] at columns
    omega
  · intro c hc d hd same
    obtain ⟨x, -, rfl⟩ := List.mem_map.1 hc
    obtain ⟨y, -, rfl⟩ := List.mem_map.1 hd
    have places := congrArg ((core.numbering .row).localPlace stage) (congrArg Prod.fst same)
    rw [position, position, externalCell, externalCell,
      rows.localPlace_member stageExists (holds.numRows ▸ List.mem_range.1 hi),
      rows.localPlace_member stageExists (holds.numRows ▸ List.mem_range.1 hk)] at places
    omega

omit inRange in
/-- **No index of a field is named twice.** -/
theorem nodup_decode_field (f : Field) : (((decode core stage patch).fields.get f).map Entry.index).Nodup := by
  have line := holds.isLine_field well f
  have stageExists : stage < (core.numbering f.axis).numStages := well.numStages_numbering f.axis ▸ lt
  rw [get_decode, List.map_map, List.Nodup, List.pairwise_map]
  refine line.ascending.imp_of_mem fun {d e} hd he apart same => ?_
  have places := congrArg ((core.numbering f.axis).localPlace stage) same
  simp only [Function.comp, externalEntry, (well.coherent f.axis).localPlace_member stageExists (line.bounded d hd),
    (well.coherent f.axis).localPlace_member stageExists (line.bounded e he)] at places
  omega

/-- No more is stored than was said. -/
theorem size_decode_le : (decode core stage patch).size ≤ overrides.size := by
  have cells : (decode core stage patch).matrix.length ≤ overrides.matrix.length := by
    have said : (decode core stage patch).matrix.map position ⊆ overrides.matrix.map position := fun p hp => by
      obtain ⟨c, hc, rfl⟩ := List.mem_map.1 hp
      exact List.mem_map_of_mem (said_of_mem_decode well inRange holds hc).1
    have fewer := (nodup_decode well lt inRange holds).length_le_of_subset said
    rwa [List.length_map, List.length_map] at fewer
  have entries : ∀ f, ((decode core stage patch).fields.get f).length ≤ (overrides.fields.get f).length := fun f => by
    have said : ((decode core stage patch).fields.get f).map Entry.index ⊆ (overrides.fields.get f).map Entry.index :=
      fun i hi => by
        obtain ⟨e, he, rfl⟩ := List.mem_map.1 hi
        obtain ⟨d, hd, same, -⟩ := (said_of_mem_decode_field well holds f he).1
        exact same ▸ List.mem_map_of_mem hd
    have fewer := (nodup_decode_field well lt holds f).length_le_of_subset said
    rwa [List.length_map, List.length_map] at fewer
  exact Nat.add_le_add cells (length_flatten_mono entries Field.all)

/-! ## Building from it again -/

section Reordered

variable (again : o.Reorders (decode core stage patch))
include again

omit lt in
theorem inRange_of_reorders : InRange core o where
  rows c hc := inRange.rows c (said_of_mem_decode well inRange holds (again.matrix.mem_iff.1 hc)).1
  cols c hc := inRange.cols c (said_of_mem_decode well inRange holds (again.matrix.mem_iff.1 hc)).1
  fields f e he := by
    obtain ⟨⟨d, hd, same, -⟩, -⟩ := said_of_mem_decode_field well holds f ((again.field f).mem_iff.1 he)
    exact same ▸ inRange.fields f d hd

/-- All cells that are said again are the stage's, and each is put back where it was. -/
theorem perm_ownCells : (ownCells core stage o.matrix).Perm
    ((List.range patch.numRows).flatMap fun i => (patch.row i).map fun e => (i, e)) := by
  have rows := well.coherent .row
  have stageExists : stage < (core.numbering .row).numStages := well.numStages_numbering .row ▸ lt
  have mine : o.matrix.filter (fun c => owns core.partition.rows stage c.row) = o.matrix :=
    List.filter_eq_self.2 fun c hc =>
      decide_eq_true (said_of_mem_decode well inRange holds (again.matrix.mem_iff.1 hc)).2
  rw [ownCells, mine]
  refine (again.matrix.map _).trans (List.Perm.of_eq ?_)
  rw [decode, List.map_flatMap, List.flatMap_def, List.flatMap_def]
  refine congrArg List.flatten (List.map_congr_left fun i hi => ?_)
  have hi : i < patch.numRows := List.mem_range.1 hi
  rw [List.map_map]
  refine List.map_congr_left fun e he => ?_
  have column := (holds.isLine_row well inRange hi).bounded e he
  exact Prod.ext (rows.localPlace_member stageExists (holds.numRows ▸ hi))
    (congrArg (Entry.mk · e.value) ((well.coherent .column).place_origin column))

omit inRange in
/-- All entries that are said again are the stage's; each is put back where it was and stored as it was. -/
theorem perm_ownEntries (f : Field) : (ownEntries core stage f (o.fields.get f)).Perm (patch.field f) := by
  have coherent := well.coherent f.axis
  have stageExists : stage < (core.numbering f.axis).numStages := well.numStages_numbering f.axis ▸ lt
  have mine : (o.fields.get f).filter (fun e => owns (core.partition.axis f.axis) stage e.index) = o.fields.get f :=
    List.filter_eq_self.2 fun e he =>
      decide_eq_true (said_of_mem_decode_field well holds f ((again.field f).mem_iff.1 he)).2
  rw [ownEntries, mine]
  refine ((again.field f).map _).trans (List.Perm.of_eq ?_)
  rw [get_decode, List.map_map]
  refine (List.map_congr_left fun e he => ?_).trans (List.map_id _)
  have line := holds.isLine_field well f
  have named : externalEntry core stage f e ∈ (decode core stage patch).fields.get f :=
    get_decode f ▸ List.mem_map_of_mem he
  obtain ⟨⟨d, -, -, value⟩, -⟩ := said_of_mem_decode_field well holds f named
  have value : e.value = core.options.stored f d.value := value
  have kept : core.options.stored f e.value = e.value := by rw [value, Options.stored_stored]
  show Entry.mk ((core.numbering f.axis).localPlace stage ((core.numbering f.axis).member stage e.index))
    (core.options.stored f e.value) = e
  rw [coherent.localPlace_member stageExists (line.bounded e he), kept]

/-- **Saying again what is stored, in any order, is holding the same.** -/
theorem holdsOverrides_of_reorders : HoldsOverrides core stage o patch where
  numRows := holds.numRows
  row {i} hi := by
    have group : (itemsAt i (ownCells core stage o.matrix)).Perm (patch.row i) :=
      ((perm_ownCells well lt inRange holds again).filterMap _).trans
        (List.Perm.of_eq ((itemsAt_flatMap patch.row i patch.numRows).trans (if_pos hi)))
    exact (lastWrites_of_perm (holds.isLine_row well inRange hi).ascending group).symm
  field f :=
    (lastWrites_of_perm (holds.isLine_field well f).ascending (perm_ownEntries well lt holds again f)).symm

omit well lt inRange holds in
theorem size_of_reorders : o.size = patch.size := by
  have stored : (decode core stage patch).size = patch.size := size_decode
  rw [← stored, Overrides.size, Overrides.size, again.matrix.length_eq]
  exact congrArg _ (length_flatten_congr (fun f => (again.field f).length_eq) Field.all)

/-- All that is said again is of the stage. -/
theorem ownedSize_of_reorders : ownedSize core stage o = patch.size := by
  have rows : (ownCells core stage o.matrix).length = ((List.range patch.numRows).map patch.row).flatten.length := by
    rw [(perm_ownCells well lt inRange holds again).length_eq, List.flatMap_def]
    exact length_flatten_congr (fun _ => List.length_map _) _
  have fields : (Field.all.flatMap fun f => ownEntries core stage f (o.fields.get f)).length =
      (Field.all.map patch.field).flatten.length := by
    rw [List.flatMap_def]
    exact length_flatten_congr (fun f => (perm_ownEntries well lt holds again f).length_eq) _
  rw [ownedSize, rows, fields, Patch.size, ← Array.length_toList, patch.toList_items, List.length_append]

/-- What is said again is accepted, counted once and stored as it was. -/
theorem ofOverrides_of_reorders (room : HasRoom limit core stage overrides) :
    ofOverridesBy limit core stage o = .ok (patched core stage patch, ⟨o.size, patch.size, 0⟩) := by
  have size := size_of_reorders again
  have fewer : o.size ≤ overrides.size := by
    have stored : (decode core stage patch).size = patch.size := size_decode
    rw [size, ← stored]
    exact size_decode_le well lt inRange holds
  refine (ofOverrides_eq_ok_iff well).2 ⟨lt, inRange_of_reorders well inRange holds again,
    ⟨Nat.lt_of_le_of_lt fewer room.entries, room.starts⟩, patch, holdsOverrides_of_reorders well lt inRange holds again,
    rfl, ?_⟩
  rw [tallyOf, ownedSize_of_reorders well lt inRange holds again, Nat.sub_self]

end Reordered

end Stored

/-- What becomes of overrides that say again what a scenario node stores. -/
structure Reencoded (limit : Nat) (core : Template) (n : Node) (patch : Patch) (o : Overrides) : Prop where
  /-- The external numbers are those that the program tells of the places of the stage, and of the columns. -/
  place : ∀ axis p, p < n.extent axis → ∃ first, (core.numbering axis).start n.stage = .ok first ∧
    (core.numbering axis).external (first + p) = .ok ((core.numbering axis).member n.stage p)
  column : ∀ j, j < n.numCols → (core.numbering .column).external j = .ok ((core.numbering .column).origin j)
  /-- What is said again is what the node answers when it is asked for its own entries. -/
  row : ∀ i, i < n.rowCount → ∃ v, n.storedRow core i = .ok v ∧ v.entries = patch.row i
  field : ∀ f, ∃ v, n.fieldOverrides f = .ok (some v) ∧ v.entries = patch.field f
  /-- The node that is built is the same, but for the rows that were kept for reading. -/
  accepted : ∃ tally, ofOverridesBy limit core n.stage o = .ok ({ n with denseRows := ∅ }, tally) ∧ tally.estimate = o.size ∧
    tally.written = n.size ∧ tally.duplicates = 0 ∧ tally.dropped = 0
  /-- Where the node is live, interning finds a live node that stores the same, and adds a holder to it. -/
  interned : ∀ (hash : Patch → UInt64) (calls : List Call) (id : NodeId),
    (Arena.after ⟨hash, limit⟩ calls).node id = .ok n →
    (Arena.after ⟨hash, limit⟩ calls).template n.template = .ok core → ∃ j m holders tally,
      (Arena.after ⟨hash, limit⟩ calls).node j = .ok m ∧
      m.template = n.template ∧ m.stage = n.stage ∧ m.patch? = some patch ∧
      (Arena.after ⟨hash, limit⟩ calls).holders j = .ok holders ∧
      (Arena.internNodeBy ⟨hash, limit⟩ n.template n.stage o).run (Arena.after ⟨hash, limit⟩ calls) =
        .ok (j, tally) ((Arena.after ⟨hash, limit⟩ calls).setHolders j (holders + 1))

/-- **Building a node from what a node stores leads back to the same node.** -/
theorem reencoded_decode {id : TemplateId} {snapshot : Snapshot} {assignment : Assignment} {options : Options} {n : Node}
    (built : Template.build id snapshot assignment options = .ok core) (made : MadeBy limit core n)
    (scenario : n.patch? = some patch) (again : o.Reorders (decode core n.stage patch)) :
    Reencoded limit core n patch o := by
  have well := Template.wellBuilt_of_build built
  cases made with
  | core => cases scenario
  | @scenario stage overrides node tally accepted rows =>
    obtain ⟨lt, inRange, room, p, holds, rfl, -⟩ := (ofOverrides_eq_ok_iff well).1 accepted
    obtain rfl : p = patch := Option.some.inj scenario
    have stored := wellStored_patched well lt inRange holds
    have accepted := ofOverrides_of_reorders well lt inRange holds again room
    have size : o.size = p.size := size_of_reorders again
    exact {
      place := fun axis q hq => by
        have inside : q < (core.numbering axis).width stage := extent_fresh (.scenario p) axis ▸ hq
        exact ⟨_, (well.coherent axis).external_member (well.numStages_numbering axis ▸ lt) inside⟩
      column := fun j hj => by
        have inside : checkIndex (core.numbering .column).axis j (core.numbering .column).size = .ok () :=
          checkIndex_eq_ok.2 hj
        exact bind_eq_ok.2 ⟨(), inside, rfl⟩
      row := fun i hi => ⟨_, storedRow_patched hi (stored.inOrder.row i hi), rfl⟩
      field := fun f => by
        obtain ⟨v, found, -, entries⟩ := stored.fieldOverrides f
        exact ⟨v, found, entries⟩
      accepted := ⟨_, accepted, rfl, rfl, rfl, by
        show o.size - p.size - 0 = 0
        omega⟩
      interned := fun hash calls id live found => by
        obtain ⟨x, live, same⟩ := Arena.node_eq_ok.1 live
        have stores : x.record.Stores core.id stage (.scenario p) := by
          rw [Record.Stores, Occupant.record, same]
          exact ⟨rfl, rfl, rfl⟩
        obtain ⟨j, b, ran, interned⟩ := Arena.run_internNode_after found accepted
        obtain ⟨y, there, -⟩ := interned.live_iff.2 ⟨id, x.record, Arena.table_of_live live, stores⟩
        obtain ⟨⟨template, stage, content⟩, -, rfl⟩ := interned.shared _ (Arena.table_of_live there)
        have content : y.node.content = .scenario p := content
        exact ⟨j, y.node, y.holders, _, Arena.node_eq_ok.2 ⟨y, there, rfl⟩, template, stage,
          by rw [Node.patch?, content], bind_eq_ok.2 ⟨y, Arena.occupant_eq_ok.2 there, rfl⟩, ran⟩ }

/-- What the small program's node stores, said again from back to front. -/
theorem reencoded_interleaved : ∃ core node tally patch o, Template.build ⟨0⟩ interleaved interleavedStages {} = .ok core ∧
    ofOverrides core 1 interleavedOverrides = .ok (node, tally) ∧ node.size = 4 ∧ MadeBy RowWriter.addressable core node ∧
    node.patch? = some patch ∧ o.Reorders (decode core node.stage patch) ∧
    o.matrix = (decode core node.stage patch).matrix.reverse ∧ Reencoded RowWriter.addressable core node patch o := by
  obtain ⟨core, node, tally, built, accepted⟩ := exists_interleaved
  have size : node.size = 4 :=
    of_decide_eq_true (of_interleaved built accepted (fun made => decide (made.1.size = 4)) (by decide +kernel))
  obtain ⟨patch, scenario⟩ : ∃ patch, node.patch? = some patch := by
    obtain ⟨-, -, patch, rfl, -⟩ := ofOverrides_eq_ok (Template.wellBuilt_of_build built) accepted
    exact ⟨patch, rfl⟩
  have made : MadeBy RowWriter.addressable core node := .scenario accepted node.denseRows
  have again : Overrides.Reorders
      ⟨(decode core node.stage patch).matrix.reverse, .ofFn fun f => ((decode core node.stage patch).fields.get f).reverse⟩
      (decode core node.stage patch) :=
    ⟨List.reverse_perm _, fun f => FieldTable.get_ofFn _ f ▸ List.reverse_perm _⟩
  exact ⟨core, node, tally, patch, _, built, accepted, size, made, scenario, again, rfl,
    reencoded_decode built made scenario again⟩

end Node
end Multistage
