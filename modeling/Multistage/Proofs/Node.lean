import Multistage.Node
import Multistage.Proofs.Patch
import Multistage.Proofs.Template
/-!
# What a node built from overrides holds

`ofOverrides_eq_ok` says what an accepted list of overrides is turned into: a node anchored to its stage, with a patch
that holds for every row and every field of the stage the last writes among the overrides that the stage owns
(`HoldsOverrides`).
-/
namespace Multistage

open Sparse

/-! ## Last writes under renumbering -/

/-- Renumbering and converting values commute with taking the last write, where the new numbers tell apart what the
old ones did. -/
theorem lastWrite?_filter_map {keep : Entry → Bool} {number : Nat → Nat} {convert : Binary64 → Binary64} {i : Nat}
    {writes : List Entry} (kept : ∀ e ∈ writes, e.index = i → keep e = true)
    (inj : ∀ e ∈ writes, keep e = true → number e.index = number i → e.index = i) :
    lastWrite? ((writes.filter keep).map fun e => ⟨number e.index, convert e.value⟩) (number i) =
      (lastWrite? writes i).map convert := by
  rw [lastWrite?, lastWrite?, ← List.map_reverse, ← List.filter_reverse]
  have kept : ∀ e ∈ writes.reverse, e.index = i → keep e = true := fun e he => kept e (List.mem_reverse.1 he)
  have inj : ∀ e ∈ writes.reverse, keep e = true → number e.index = number i → e.index = i :=
    fun e he => inj e (List.mem_reverse.1 he)
  generalize writes.reverse = l at kept inj
  induction l with
  | nil => rfl
  | cons e l ih =>
    have ih := ih (fun d hd => kept d (List.mem_cons_of_mem _ hd)) (fun d hd => inj d (List.mem_cons_of_mem _ hd))
    have kept := kept e (List.mem_cons_self ..)
    have inj := inj e (List.mem_cons_self ..)
    rw [lookup_cons]
    by_cases hi : e.index = i
    · rw [if_pos hi, List.filter_cons_of_pos (kept hi), List.map_cons, lookup_cons, if_pos (by rw [hi])]
      rfl
    · rw [if_neg hi, ← ih]
      by_cases hk : keep e = true
      · rw [List.filter_cons_of_pos hk, List.map_cons, lookup_cons, if_neg fun h => hi (inj hk h)]
      · rw [List.filter_cons_of_neg hk]

namespace Node

def fresh (core : Template) (stage : Nat) (content : Content) : Node where
  template := core.id
  stage := stage
  rule := core.options.rule
  dropZeros := core.options.dropZeros
  numCols := core.numCols
  rowCount := (core.numbering .row).width stage
  colCount := (core.numbering .column).width stage
  content := content
  denseRows := ∅

/-- A scenario node, its cache empty. -/
abbrev patched (core : Template) (stage : Nat) (patch : Patch) : Node := fresh core stage (.scenario patch)

/-- What the overrides of a field become for a stage: its own, renumbered, the last of each. -/
def fieldWrites (core : Template) (stage : Nat) (overrides : Overrides) (f : Field) : List Entry :=
  lastWrites (ownEntries core stage f (overrides.fields.get f))

/-- What the overrides of the matrix become for a row of a stage. -/
def rowWrites (core : Template) (stage : Nat) (overrides : Overrides) (i : Nat) : List Entry :=
  lastWrites (itemsAt i (ownCells core stage overrides.matrix))

/-- The patch holds what the overrides say of the stage. -/
structure HoldsOverrides (core : Template) (stage : Nat) (overrides : Overrides) (patch : Patch) : Prop where
  numRows : patch.numRows = (core.numbering .row).width stage
  row : ∀ {i : Nat}, i < patch.numRows → patch.row i = rowWrites core stage overrides i
  field : ∀ f, patch.field f = fieldWrites core stage overrides f

structure InRange (core : Template) (overrides : Overrides) : Prop where
  rows : ∀ c ∈ overrides.matrix, c.row < core.numRows
  cols : ∀ c ∈ overrides.matrix, c.col < core.numCols
  fields : ∀ f, ∀ e ∈ overrides.fields.get f, e.index < (core.numbering f.axis).size

variable {core : Template} {stage : Nat} {overrides : Overrides}

theorem anchored_eq_ok (built : core.WellBuilt) {content : Content} {n : Node} :
    anchored core stage content = .ok n ↔ stage < core.numStages ∧ n = fresh core stage content := by
  simp only [anchored, bind_eq_ok, pure_eq_ok, Numbering.count_eq_ok]
  constructor
  · rintro ⟨_, ⟨lt, rfl⟩, _, ⟨_, rfl⟩, rfl⟩
    exact ⟨built.numStages_numbering .row ▸ lt, rfl⟩
  · rintro ⟨lt, rfl⟩
    have rows := built.numStages_numbering .row
    have cols := built.numStages_numbering .column
    exact ⟨_, ⟨rows.symm ▸ lt, rfl⟩, _, ⟨cols.symm ▸ lt, rfl⟩, rfl⟩

/-- Fields written in storage order are appended one after another. -/
theorem foldlM_writeField : ∀ (fields : List Field) (k : Nat) (w w' : FieldWriter),
    fields.map Field.rank = List.range' k fields.length → w.parts.count = w.numRows + k →
    fields.foldlM (writeField core stage overrides) w = .ok w' →
    (∀ f ∈ fields, checkEntries core f.axis (overrides.fields.get f) = .ok ()) ∧ w'.numRows = w.numRows ∧
      w'.parts.closed = w.parts.closed ++ fields.map (fieldWrites core stage overrides)
  | [], k, w, w', _, _, h => by
    rw [List.foldlM_nil, pure_eq_ok] at h
    subst h
    exact ⟨by simp, rfl, (List.append_nil _).symm⟩
  | f :: fields, k, w, w', ranks, count, h => by
    rw [List.map_cons, List.length_cons, List.range'_succ, List.cons.injEq] at ranks
    obtain ⟨rank, ranks⟩ := ranks
    simp only [List.foldlM_cons, bind_eq_ok, writeField] at h
    obtain ⟨w₁, ⟨_, checked, written⟩, h⟩ := h
    obtain ⟨w₂, hw₂, numRows, closed⟩ := w.exists_write (fieldWrites core stage overrides f)
      (show w.parts.count ≤ w.numRows + f.rank by omega)
    obtain rfl : w₂ = w₁ := Except.ok.inj (hw₂.symm.trans written)
    rw [show w.numRows + f.rank - w.parts.count = 0 by omega, List.replicate_zero, List.append_nil] at closed
    have count₂ : w₂.parts.count = w₂.numRows + (k + 1) := by
      rw [← Parts.length_closed, closed, List.length_append, Parts.length_closed, count, numRows]
      rfl
    obtain ⟨checks, numRows', closed'⟩ := foldlM_writeField fields (k + 1) w₂ w' ranks count₂ h
    refine ⟨List.forall_mem_cons.2 ⟨checked, checks⟩, numRows'.trans numRows, ?_⟩
    rw [closed', closed, List.append_assoc]
    rfl

theorem inRange_of_checks (cells : checkCells core overrides.matrix = .ok ())
    (fields : ∀ f ∈ Field.all, checkEntries core f.axis (overrides.fields.get f) = .ok ()) :
    InRange core overrides := by
  simp only [checkCells, checkEntries, forM_eq_ok, bind_eq_ok, checkIndex_eq_ok] at cells fields
  exact {
    rows := fun c hc => (cells c hc).choose_spec.1
    cols := fun c hc => (cells c hc).choose_spec.2
    fields := fun f => fields f f.mem_all }

/-- A writer to which the rows of a stage have been written. -/
def rowsWritten (numRows : Nat) (cells : List (Nat × Entry)) : RowWriter :=
  (buckets numRows cells).foldl (fun w row => w.writeRow (lastWrites row)) { parts := .empty, numRows }

/-- After the rows the fields can begin, and nothing but the rows has been written. -/
theorem toFields_rowsWritten (numRows : Nat) (cells : List (Nat × Entry)) :
    ∃ w, (rowsWritten numRows cells).toFields = .ok w ∧ w.numRows = numRows ∧
      w.parts.closed = (List.range numRows).map fun i => lastWrites (itemsAt i cells) := by
  have rows : rowsWritten numRows cells = ((List.range numRows).map fun i => lastWrites (itemsAt i cells)).foldl
      RowWriter.writeRow { parts := .empty, numRows } := by
    rw [rowsWritten, ← Array.foldl_toList, toList_buckets, List.foldl_map, List.foldl_map]
  obtain ⟨closed, pending, declared⟩ := RowWriter.closed_writeRows
    ((List.range numRows).map fun i => lastWrites (itemsAt i cells)) (w := { parts := .empty, numRows })
    Parts.pending_empty
  rw [← rows, Parts.closed_empty, List.nil_append] at closed
  rw [← rows] at pending declared
  have count : (rowsWritten numRows cells).parts.count = (rowsWritten numRows cells).numRows := by
    rw [declared, ← Parts.length_closed, closed, List.length_map, List.length_range]
  obtain ⟨w, hw⟩ := RowWriter.exists_toFields count pending
  obtain ⟨parts, numRows'⟩ := (RowWriter.toFields_eq_ok count pending).1 hw
  exact ⟨w, hw, numRows'.trans declared, by rw [parts, closed]⟩

/-- A patch whose parts are the last writes to each row and to each field holds the overrides. -/
theorem holdsOverrides_finish {w : FieldWriter} (numRows : w.numRows = (core.numbering .row).width stage)
    (closed : w.parts.closed = (List.range w.numRows).map (rowWrites core stage overrides) ++
      Field.all.map (fieldWrites core stage overrides)) : HoldsOverrides core stage overrides w.finish := by
  have count : w.parts.count = w.numRows + 5 := by
    rw [← Parts.length_closed, closed, List.length_append, List.length_map, List.length_range]
    rfl
  have parts : w.finish.parts.closed = (List.range w.numRows).map (rowWrites core stage overrides) ++
      Field.all.map (fieldWrites core stage overrides) := by
    rw [FieldWriter.closed_finish, count, Nat.sub_self, List.replicate_zero, List.append_nil, closed]
  refine ⟨numRows, fun {i} hi => ?_, fun f => ?_⟩
  · have row := Patch.row_eq hi
    have hi : i < w.numRows := hi
    rw [parts, List.getElem?_append_left (by simpa using hi), List.getElem?_map,
      List.getElem?_range hi, Option.map_some, Option.some.injEq] at row
    exact row.symm
  · have field := Patch.field_eq (p := w.finish) f
    rw [parts, FieldWriter.numRows_finish, List.getElem?_append_right (by simp), List.length_map, List.length_range,
      Nat.add_sub_cancel_left, List.getElem?_map, f.all_rank, Option.map_some, Option.some.injEq] at field
    exact field.symm

/-- **What an accepted list of overrides is turned into.** -/
theorem ofOverrides_eq_ok {limit : Nat} (built : core.WellBuilt) {node : Node} {tally : Tally}
    (h : ofOverridesBy limit core stage overrides = .ok (node, tally)) :
    stage < core.numStages ∧ InRange core overrides ∧
      ∃ patch, node = patched core stage patch ∧ HoldsOverrides core stage overrides patch := by
  simp only [ofOverridesBy, RowWriter.withCapacityBy, bind_eq_ok, pure_eq_ok, checkStage_eq_ok,
    Numbering.count_eq_ok] at h
  obtain ⟨_, lt, _, ⟨_, rfl⟩, _, ⟨_, _, _, _, rfl⟩, _, cells, w, hw, w', hw', n, hn, hn'⟩ := h
  obtain ⟨rfl, -⟩ := Prod.mk.inj hn'
  obtain ⟨w₁, hw₁, numRows, closed⟩ := toFields_rowsWritten ((core.numbering .row).width stage)
    (ownCells core stage overrides.matrix)
  obtain rfl : w₁ = w := Except.ok.inj (hw₁.symm.trans hw)
  have count : w₁.parts.count = w₁.numRows := by rw [← Parts.length_closed, closed, numRows]; simp
  obtain ⟨checks, numRows', closed'⟩ := foldlM_writeField Field.all 0 w₁ w' rfl count hw'
  obtain ⟨_, rfl⟩ := (anchored_eq_ok built).1 hn
  rw [closed, ← numRows, ← numRows'] at closed'
  exact ⟨lt, inRange_of_checks cells checks, w'.finish, rfl,
    holdsOverrides_finish (numRows'.trans numRows) closed'⟩

end Node

/-! ## Overrides of the small program

Written for the second stage: indices given twice, indices of the other stage, and a column of the other stage. -/

def interleavedOverrides : Overrides where
  matrix := [⟨0, 1, .posInf⟩, ⟨0, 2, .negInf⟩, ⟨1, 0, .nan⟩, ⟨0, 2, 0⟩]
  fields := (FieldTable.ofFn fun _ => []).update .colUpper fun _ =>
    [⟨2, 0⟩, ⟨0, ⟨0x7fe0000000000000⟩⟩, ⟨2, .negInf⟩, ⟨1, .nan⟩]

theorem exists_interleaved : ∃ core node tally, Template.build ⟨0⟩ interleaved interleavedStages {} = .ok core ∧
    Node.ofOverrides core 1 interleavedOverrides = .ok (node, tally) := by
  obtain ⟨core, built⟩ := exists_of_isOk
    (show (Template.build ⟨0⟩ interleaved interleavedStages {}).isOk = true by decide +kernel)
  have accepted : ((Template.build ⟨0⟩ interleaved interleavedStages {}).bind fun core =>
      Node.ofOverrides core 1 interleavedOverrides).isOk = true := by decide +kernel
  rw [built] at accepted
  obtain ⟨⟨node, tally⟩, accepted⟩ := exists_of_isOk accepted
  exact ⟨core, node, tally, built, accepted⟩

/-- What can be read off the node that is made of them. -/
theorem of_interleaved {core : Template} {node : Node} {tally : Tally}
    (built : Template.build ⟨0⟩ interleaved interleavedStages {} = .ok core)
    (accepted : Node.ofOverrides core 1 interleavedOverrides = .ok (node, tally)) (holds : Node × Tally → Bool)
    (evaluated : (((Template.build ⟨0⟩ interleaved interleavedStages {}).bind fun core =>
      Node.ofOverrides core 1 interleavedOverrides).toOption.all holds) = true) : holds (node, tally) = true := by
  rw [built] at evaluated
  have made : (Except.ok core).bind (fun core => Node.ofOverrides core 1 interleavedOverrides) = .ok (node, tally) := accepted
  rw [made] at evaluated
  exact evaluated

end Multistage
