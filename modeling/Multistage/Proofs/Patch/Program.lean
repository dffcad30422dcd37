import Mathlib.Data.List.Induction
import Multistage.Proofs.Outcome
import Multistage.Proofs.Patch
/-!
# Programs that write a patch

A program pushes entries and ends rows, goes on to the fields, writes some of them and finishes.  What it wrote is read
off the list of its calls: `pushedAfter` for the rows, and the calls that were not refused for the fields.

`readsBack_finish` compares that with what the writers check and with what the finished patch answers.  Both phases are
followed call by call from the end of the program.
-/
namespace Multistage

open Sparse

/-! ## Rows -/

inductive RowCall where
  | push (e : Entry)
  | endRow
deriving DecidableEq, Repr

namespace RowWriter

def perform (w : RowWriter) : RowCall → RowWriter
  | .push e => w.push e
  | .endRow => w.endRow

def after (w : RowWriter) (calls : List RowCall) : RowWriter := calls.foldl perform w

end RowWriter

/-- How many rows a program ends. -/
def endedRows (calls : List RowCall) : Nat := calls.countP (· = .endRow)

/-- What a program pushes once so many rows have ended, until the next one ends. -/
def pushedAfter : Nat → List RowCall → List Entry
  | _, [] => []
  | 0, .push e :: calls => e :: pushedAfter 0 calls
  | 0, .endRow :: _ => []
  | i + 1, .push _ :: calls => pushedAfter (i + 1) calls
  | i + 1, .endRow :: calls => pushedAfter i calls

theorem endedRows_push (e : Entry) (calls : List RowCall) : endedRows (.push e :: calls) = endedRows calls :=
  List.countP_cons_of_neg (by simp)

theorem endedRows_endRow (calls : List RowCall) : endedRows (.endRow :: calls) = endedRows calls + 1 :=
  List.countP_cons_of_pos (by simp)

theorem pushedAfter_concat_push (e : Entry) : ∀ (i : Nat) (calls : List RowCall),
    pushedAfter i (calls ++ [.push e]) =
      if i = endedRows calls then pushedAfter i calls ++ [e] else pushedAfter i calls
  | 0, [] => rfl
  | i + 1, [] => rfl
  | 0, .push d :: calls => by
    rw [List.cons_append, pushedAfter, pushedAfter_concat_push e 0 calls, endedRows_push, pushedAfter]
    split <;> rfl
  | 0, .endRow :: calls => by
    rw [endedRows_endRow, if_neg (Nat.succ_ne_zero _).symm]
    rfl
  | i + 1, .push d :: calls => by
    rw [List.cons_append, pushedAfter, pushedAfter_concat_push e (i + 1) calls, endedRows_push, pushedAfter]
  | i + 1, .endRow :: calls => by
    rw [List.cons_append, pushedAfter, pushedAfter_concat_push e i calls, endedRows_endRow, pushedAfter]
    simp only [Nat.add_right_cancel_iff]

theorem pushedAfter_concat_endRow : ∀ (i : Nat) (calls : List RowCall),
    pushedAfter i (calls ++ [.endRow]) = pushedAfter i calls
  | 0, [] => rfl
  | 0, .push d :: calls => congrArg (d :: ·) (pushedAfter_concat_endRow 0 calls)
  | 0, .endRow :: _ => rfl
  | i + 1, .push _ :: calls => pushedAfter_concat_endRow (i + 1) calls
  | i + 1, [] => by cases i <;> rfl
  | i + 1, .endRow :: calls => pushedAfter_concat_endRow i calls

/-- Nothing is pushed after more rows than end. -/
theorem pushedAfter_of_lt : ∀ (i : Nat) (calls : List RowCall), endedRows calls < i → pushedAfter i calls = []
  | i, [], _ => by cases i <;> rfl
  | 0, _ :: _, h => by omega
  | i + 1, .push _ :: calls, h => pushedAfter_of_lt (i + 1) calls (by rwa [endedRows_push] at h)
  | i + 1, .endRow :: calls, h => pushedAfter_of_lt i calls (by rw [endedRows_endRow] at h; omega)

namespace RowWriter

/-- A writer for some rows to which nothing has been written. -/
def blank (numRows : Nat) : RowWriter := { parts := .empty, numRows }

theorem withCapacityBy_eq_ok {limit entries numRows : Nat} {w : RowWriter}
    (h : withCapacityBy limit entries numRows = .ok w) :
    w = blank numRows := by
  simp only [withCapacityBy, bind_eq_ok, pure_eq_ok] at h
  obtain ⟨_, _, _, _, rfl⟩ := h
  rfl

theorem numRows_after (numRows : Nat) (calls : List RowCall) : ((blank numRows).after calls).numRows = numRows := by
  induction calls using List.reverseRecOn with
  | nil => rfl
  | append_singleton calls c ih =>
    rw [after, List.foldl_append]
    cases c <;> exact ih

/-- **A closed row holds what was pushed before it ended**, and what has been pushed since is pending. -/
theorem closed_after (numRows : Nat) (calls : List RowCall) :
    ((blank numRows).after calls).parts.closed = (List.range (endedRows calls)).map (pushedAfter · calls) ∧
      ((blank numRows).after calls).parts.pending = pushedAfter (endedRows calls) calls := by
  induction calls using List.reverseRecOn with
  | nil => exact ⟨rfl, rfl⟩
  | append_singleton calls c ih =>
    obtain ⟨closed, pending⟩ := ih
    have step : (blank numRows).after (calls ++ [c]) = ((blank numRows).after calls).perform c := by
      rw [after, List.foldl_append]
      rfl
    rw [step]
    cases c with
    | push e =>
      have ended : endedRows (calls ++ [.push e]) = endedRows calls := by simp [endedRows]
      rw [perform, push, Parts.closed_push, Parts.pending_push, closed, pending, ended]
      refine ⟨List.map_congr_left fun i hi => ?_, ?_⟩
      · rw [pushedAfter_concat_push, if_neg (Nat.ne_of_lt (List.mem_range.1 hi))]
      · rw [pushedAfter_concat_push, if_pos rfl]
    | endRow =>
      have ended : endedRows (calls ++ [.endRow]) = endedRows calls + 1 := by simp [endedRows]
      rw [perform, endRow, Parts.closed_close, Parts.pending_close, closed, pending, ended, List.range_succ,
        List.map_append]
      refine ⟨congr (congrArg _ (List.map_congr_left fun i _ => ?_)) ?_, ?_⟩
      · rw [pushedAfter_concat_endRow]
      · rw [List.map_singleton, pushedAfter_concat_endRow]
      · rw [pushedAfter_concat_endRow, pushedAfter_of_lt _ _ (Nat.lt_succ_self _)]

theorem count_after (numRows : Nat) (calls : List RowCall) :
    ((blank numRows).after calls).parts.count = endedRows calls := by
  rw [← Parts.length_closed, (closed_after numRows calls).1, List.length_map, List.length_range]

/-- What is checked when a program goes on to the fields: first the number of rows, then that the last row has ended. -/
structure ChecksRows (numRows : Nat) (calls : List RowCall) (result : Except Error FieldWriter) : Prop where
  ok_iff : (∃ w, result = .ok w) ↔ endedRows calls = numRows ∧ pushedAfter numRows calls = []
  wrongCount : endedRows calls ≠ numRows → result = .error (.lengthMismatch .patchRows numRows (endedRows calls))
  openRow : endedRows calls = numRows → pushedAfter numRows calls ≠ [] →
    result = .error (.openRow (pushedAfter numRows calls).length)

theorem checksRows_toFields (numRows : Nat) (calls : List RowCall) :
    ChecksRows numRows calls ((blank numRows).after calls).toFields := by
  have count := count_after numRows calls
  have pending := (closed_after numRows calls).2
  have declared := numRows_after numRows calls
  by_cases rows : endedRows calls = numRows
  · have rows' : ((blank numRows).after calls).parts.count = ((blank numRows).after calls).numRows := by
      rw [count, declared, rows]
    rw [rows] at pending
    by_cases last : pushedAfter numRows calls = []
    · exact {
        ok_iff := iff_of_true (exists_toFields rows' (pending.trans last)) ⟨rows, last⟩
        wrongCount := fun other => absurd rows other
        openRow := fun _ some => absurd last some }
    · have refused : ((blank numRows).after calls).toFields = .error (.openRow (pushedAfter numRows calls).length) := by
        rw [toFields, dif_pos rows', dif_neg (pending ▸ last), pending]
      rw [refused]
      exact {
        ok_iff := iff_of_false (by rintro ⟨_, ⟨⟩⟩) fun h => last h.2
        wrongCount := fun other => absurd rows other
        openRow := fun _ _ => rfl }
  · have refused : ((blank numRows).after calls).toFields =
        .error (.lengthMismatch .patchRows numRows (endedRows calls)) := by
      rw [toFields, dif_neg (by rw [count, declared]; exact rows), count, declared]
    rw [refused]
    exact {
      ok_iff := iff_of_false (by rintro ⟨_, ⟨⟩⟩) fun h => rows h.1
      wrongCount := fun _ => rfl
      openRow := fun same => absurd same rows }

end RowWriter

/-! ## Fields -/

structure FieldCall where
  field : Field
  entries : List Entry
deriving DecidableEq, Repr

namespace FieldWriter

/-- Writes a field, or fails and goes on with the writer as it is then. -/
def perform (c : FieldCall) : EStateM Error FieldWriter Unit := do
  set (← attempt ((← get).write c.field c.entries))

def next (w : FieldWriter) (c : FieldCall) : FieldWriter := stateAfter (perform c) w

def after (w : FieldWriter) (calls : List FieldCall) : FieldWriter := calls.foldl next w

/-- The calls of a program that succeed. -/
def written (w : FieldWriter) : List FieldCall → List FieldCall
  | [] => []
  | c :: calls =>
    match (perform c).run w with
    | .ok _ w' => c :: written w' calls
    | .error _ w' => written w' calls

variable {w : FieldWriter} {c : FieldCall}

theorem run_perform_ok {w' : FieldWriter} (h : w.write c.field c.entries = .ok w') : (perform c).run w = .ok () w' := by
  rw [perform, run_bind_get, h, run_bind_ok (run_attempt_ok ..)]
  rfl

/-- **A field out of order is refused**, and the writer is as it was. -/
theorem run_perform_error (late : ¬ w.parts.count ≤ w.numRows + c.field.rank) :
    (perform c).run w = .error (.fieldOrder c.field) w := by
  have refused : w.write c.field c.entries = .error (.fieldOrder c.field) := dif_neg late
  rw [perform, run_bind_get, refused, run_bind_error (run_attempt_error ..)]

theorem after_concat (w : FieldWriter) (calls : List FieldCall) (c : FieldCall) :
    w.after (calls ++ [c]) = (w.after calls).next c := by
  rw [after, List.foldl_append]
  rfl

theorem written_cons_ok {w' : FieldWriter} (h : (perform c).run w = .ok () w') (calls : List FieldCall) :
    w.written (c :: calls) = c :: w'.written calls := by
  rw [written, h]

theorem written_cons_error {w' : FieldWriter} {e : Error} (h : (perform c).run w = .error e w')
    (calls : List FieldCall) : w.written (c :: calls) = w'.written calls := by
  rw [written, h]

theorem written_append : ∀ (w : FieldWriter) (calls more : List FieldCall),
    w.written (calls ++ more) = w.written calls ++ (w.after calls).written more
  | w, [], more => rfl
  | w, c :: calls, more => by
    have step : w.after (c :: calls) = (w.next c).after calls := rfl
    rw [step, next, stateAfter, List.cons_append]
    cases h : (perform c).run w with
    | ok _ w' =>
      rw [written_cons_ok h, written_cons_ok h, written_append w' calls more]
      rfl
    | error _ w' => rw [written_cons_error h, written_cons_error h, written_append w' calls more]

/-- What holds of a writer after some rows and some fields: the closed parts are the rows, then the fields up to the
last one written, empty ones for those that were skipped. -/
structure Holds (rows : List (List Entry)) (done : List FieldCall) (w : FieldWriter) : Prop where
  numRows : w.numRows = rows.length
  kept : rows <+: w.parts.closed
  inTime_iff : ∀ f : Field, w.parts.count ≤ rows.length + f.rank ↔ ∀ d ∈ done, d.field.rank < f.rank
  field : ∀ d ∈ done, w.parts.closed[rows.length + d.field.rank]? = some d.entries
  skipped : ∀ f : Field, rows.length + f.rank < w.parts.count → (∀ d ∈ done, d.field ≠ f) →
    w.parts.closed[rows.length + f.rank]? = some []

variable {rows : List (List Entry)} {done : List FieldCall}

/-- A field that comes after all that were written is written too. -/
theorem Holds.write (h : Holds rows done w) (later : ∀ d ∈ done, d.field.rank < c.field.rank) :
    ∃ w', w.write c.field c.entries = .ok w' ∧ Holds rows (done ++ [c]) w' := by
  have inTime := (h.inTime_iff c.field).2 later
  obtain ⟨w', ran, numRows, closed⟩ := w.exists_write c.entries (h.numRows ▸ inTime)
  rw [h.numRows] at closed
  have enough : rows.length ≤ w.parts.count := by
    rw [← Parts.length_closed]
    exact h.kept.length_le
  have count : w'.parts.count = rows.length + c.field.rank + 1 := by
    rw [← Parts.length_closed, closed, List.length_append, List.length_append, Parts.length_closed,
      List.length_replicate, List.length_singleton]
    omega
  have old : ∀ i, i < w.parts.count → w'.parts.closed[i]? = w.parts.closed[i]? := fun i hi => by
    rw [closed, List.append_assoc, List.getElem?_append_left (by rwa [Parts.length_closed])]
  have new : w'.parts.closed[rows.length + c.field.rank]? = some c.entries := by
    rw [closed, List.getElem?_append_right (by simp; omega), List.length_append, Parts.length_closed,
      List.length_replicate, show rows.length + c.field.rank - _ = 0 by omega]
    rfl
  refine ⟨w', ran, numRows.trans h.numRows, ?_, fun f => ?_, fun d hd => ?_, fun f hf other => ?_⟩
  · rw [closed, List.append_assoc]
    exact h.kept.trans (List.prefix_append ..)
  · rw [count, List.forall_mem_append, List.forall_mem_singleton]
    refine ⟨fun hf => ⟨fun d hd => ?_, by omega⟩, fun ⟨_, hf⟩ => by omega⟩
    have := later d hd
    omega
  · rcases List.mem_append.1 hd with hd | hd
    · rw [old _ (by have := (h.inTime_iff d.field).not.2 fun all => Nat.lt_irrefl _ (all d hd); omega)]
      exact h.field d hd
    · rw [List.mem_singleton.1 hd]
      exact new
  · obtain ⟨others, own⟩ := List.forall_mem_append.1 other
    have ne : f.rank ≠ c.field.rank := fun same => own c (List.mem_singleton_self c) (Field.rank_inj same).symm
    by_cases hw : rows.length + f.rank < w.parts.count
    · rw [old _ hw]
      exact h.skipped f hw others
    · rw [closed, List.append_assoc, List.getElem?_append_right (by rw [Parts.length_closed]; omega),
        List.getElem?_append_left (by rw [List.length_replicate, Parts.length_closed]; omega), List.getElem?_replicate,
        if_pos (by rw [Parts.length_closed]; omega)]

/-- How a call ends: a field is written exactly if it comes after all that were written before. -/
structure ChecksField (done : List FieldCall) (w : FieldWriter) (c : FieldCall) : Prop where
  ok_iff : (∃ w', (perform c).run w = .ok () w') ↔ ∀ d ∈ done, d.field.rank < c.field.rank
  refused : (¬ ∀ d ∈ done, d.field.rank < c.field.rank) → (perform c).run w = .error (.fieldOrder c.field) w

theorem Holds.checksField (h : Holds rows done w) (c : FieldCall) : ChecksField done w c := by
  by_cases later : ∀ d ∈ done, d.field.rank < c.field.rank
  · obtain ⟨w', ran, -⟩ := h.write later
    exact ⟨iff_of_true ⟨w', run_perform_ok ran⟩ later, fun early => absurd later early⟩
  · have late : ¬ w.parts.count ≤ w.numRows + c.field.rank := h.numRows ▸ (h.inTime_iff c.field).not.2 later
    have refused := run_perform_error late
    refine ⟨iff_of_false ?_ later, fun _ => refused⟩
    rintro ⟨w', ran⟩
    rw [refused] at ran
    cases ran

/-- **What holds before the fields holds after any program of field calls**, with the fields it wrote. -/
theorem Holds.after (h : Holds rows [] w) (calls : List FieldCall) : Holds rows (w.written calls) (w.after calls) := by
  induction calls using List.reverseRecOn with
  | nil => exact h
  | append_singleton calls c ih =>
    rw [written_append, after_concat, next, stateAfter]
    by_cases later : ∀ d ∈ w.written calls, d.field.rank < c.field.rank
    · obtain ⟨w', ran, holds⟩ := ih.write later
      rw [written_cons_ok (run_perform_ok ran), run_perform_ok ran]
      exact holds
    · have refused := (ih.checksField c).refused later
      rw [written_cons_error refused, refused, written, List.append_nil]
      exact ih

/-- The fields that are written ascend. -/
theorem Holds.pairwise_written (h : Holds rows [] w) (calls : List FieldCall) :
    (w.written calls).Pairwise (·.field.rank < ·.field.rank) := by
  induction calls using List.reverseRecOn with
  | nil => exact List.Pairwise.nil
  | append_singleton calls c ih =>
    rw [written_append]
    by_cases later : ∀ d ∈ w.written calls, d.field.rank < c.field.rank
    · obtain ⟨w', ran, -⟩ := (h.after calls).write later
      rw [written_cons_ok (run_perform_ok ran), written, List.pairwise_append]
      exact ⟨ih, List.pairwise_singleton .., fun d hd e he => List.mem_singleton.1 he ▸ later d hd⟩
    · rw [written_cons_error (((h.after calls).checksField c).refused later), written, List.append_nil]
      exact ih

end FieldWriter

/-! ## Reading back -/

/-- A finished patch holds the rows and the fields that a program wrote, and nothing else. -/
structure Patch.ReadsBack (declared : Nat) (rows : List RowCall) (written : List FieldCall) (p : Patch) : Prop where
  numRows : p.numRows = declared
  row : ∀ i, i < declared → p.row i = pushedAfter i rows
  field : ∀ c ∈ written, p.field c.field = c.entries
  skipped : ∀ f, (∀ c ∈ written, c.field ≠ f) → p.field f = []
  items : p.parts.items.toList = ((List.range declared).map p.row).flatten ++ (Field.all.map p.field).flatten
  matrixSize : p.matrixSize = ((List.range declared).map p.row).flatten.length
  size : p.size = p.matrixSize + (p.field .colLower).length + (p.field .colUpper).length +
    (p.field .objective).length + (p.field .rowLower).length + (p.field .rowUpper).length

namespace Patch

theorem toList_items (p : Patch) :
    p.parts.items.toList = ((List.range p.numRows).map p.row).flatten ++ (Field.all.map p.field).flatten := by
  rw [p.parts.toList_items, p.complete, List.append_nil, p.closed_eq, List.flatten_append]

theorem matrixSize_eq (p : Patch) : p.matrixSize = ((List.range p.numRows).map p.row).flatten.length := by
  rw [matrixSize, p.parts.start_eq (by rw [p.count]; omega), p.closed_eq, List.take_left' (by simp)]

theorem size_eq (p : Patch) : p.size = p.matrixSize + (p.field .colLower).length + (p.field .colUpper).length +
    (p.field .objective).length + (p.field .rowLower).length + (p.field .rowUpper).length := by
  rw [size, ← Array.length_toList, p.toList_items, List.length_append, ← p.matrixSize_eq]
  simp only [Field.all, List.map_cons, List.map_nil, List.flatten_cons, List.flatten_nil, List.append_nil,
    List.length_append]
  omega

end Patch

namespace FieldWriter

theorem holds_toFields {numRows : Nat} {calls : List RowCall} {w : FieldWriter}
    (h : ((RowWriter.blank numRows).after calls).toFields = .ok w) :
    Holds ((List.range numRows).map (pushedAfter · calls)) [] w := by
  obtain ⟨ended, nothing⟩ := (RowWriter.checksRows_toFields numRows calls).ok_iff.1 ⟨w, h⟩
  have count := RowWriter.count_after numRows calls
  have declared := RowWriter.numRows_after numRows calls
  obtain ⟨closed, pending⟩ := RowWriter.closed_after numRows calls
  rw [ended] at closed count pending
  obtain ⟨parts, numRows'⟩ := (RowWriter.toFields_eq_ok (count.trans declared.symm) (pending.trans nothing)).1 h
  have length : ((List.range numRows).map (pushedAfter · calls)).length = numRows := by simp
  rw [← parts] at closed count
  exact {
    numRows := by rw [numRows', declared, length]
    kept := closed ▸ List.prefix_refl _
    inTime_iff := fun f => iff_of_true (by rw [count, length]; omega) nofun
    field := nofun
    skipped := fun f hf => by omega }

theorem Holds.field_finish {rows : List (List Entry)} {done : List FieldCall} {w : FieldWriter}
    (h : Holds rows done w) :
    (∀ d ∈ done, w.finish.field d.field = d.entries) ∧
      ∀ f, (∀ d ∈ done, d.field ≠ f) → w.finish.field f = [] := by
  have closed := w.closed_finish
  have read : ∀ f, w.finish.parts.closed[rows.length + f.rank]? = some (w.finish.field f) := fun f =>
    h.numRows ▸ Patch.field_eq (p := w.finish) f
  refine ⟨fun d hd => ?_, fun f other => ?_⟩
  · have field := h.field d hd
    have inside := (List.getElem?_eq_some_iff.1 field).1
    have answer := read d.field
    rw [closed, List.getElem?_append_left inside, field] at answer
    exact (Option.some.inj answer).symm
  · have answer := read f
    by_cases hw : rows.length + f.rank < w.parts.count
    · rw [closed, List.getElem?_append_left (by rwa [Parts.length_closed]), h.skipped f hw other] at answer
      exact (Option.some.inj answer).symm
    · have := f.rank_lt
      rw [closed, List.getElem?_append_right (by rw [Parts.length_closed]; omega), List.getElem?_replicate,
        if_pos (by rw [Parts.length_closed, h.numRows]; omega)] at answer
      exact (Option.some.inj answer).symm

theorem Holds.row_finish {rows : List (List Entry)} {done : List FieldCall} {w : FieldWriter}
    (h : Holds rows done w) {i : Nat} (hi : i < rows.length) : w.finish.row i = rows[i] := by
  have answer := Patch.row_eq (p := w.finish) (h.numRows.symm ▸ hi)
  have kept : rows <+: w.finish.parts.closed := h.kept.trans (w.closed_finish ▸ List.prefix_append ..)
  rw [List.prefix_iff_getElem?.1 kept i hi] at answer
  exact (Option.some.inj answer).symm

/-- What holds of a writer that is finished is read back from the patch. -/
theorem Holds.readsBack {numRows : Nat} {calls : List RowCall} {done : List FieldCall} {w : FieldWriter}
    (h : Holds ((List.range numRows).map (pushedAfter · calls)) done w) :
    w.finish.ReadsBack numRows calls done := by
  have numRows' : w.finish.numRows = numRows := by rw [numRows_finish, h.numRows]; simp
  obtain ⟨field, skipped⟩ := h.field_finish
  exact {
    numRows := numRows'
    row := fun i hi => by rw [h.row_finish (by simpa using hi)]; simp
    field, skipped
    items := by rw [w.finish.toList_items, numRows']
    matrixSize := by rw [w.finish.matrixSize_eq, numRows']
    size := w.finish.size_eq }

end FieldWriter

/-- **What was written is what is read**: of every program it is decided by its calls alone which of them succeed, and
the patch in the end holds the entries of those that did. -/
theorem readsBack_finish {limit entries numRows : Nat} {w : RowWriter}
    (reserved : RowWriter.withCapacityBy limit entries numRows = .ok w) (rows : List RowCall) :
    RowWriter.ChecksRows numRows rows (w.after rows).toFields ∧
      ∀ v, (w.after rows).toFields = .ok v → ∀ fields : List FieldCall,
        (∀ before c, before ++ [c] <+: fields → FieldWriter.ChecksField (v.written before) (v.after before) c) ∧
        (v.written fields).Pairwise (·.field.rank < ·.field.rank) ∧
        (v.after fields).finish.ReadsBack numRows rows (v.written fields) := by
  obtain rfl := RowWriter.withCapacityBy_eq_ok reserved
  refine ⟨RowWriter.checksRows_toFields numRows rows, fun v h fields => ?_⟩
  have holds := FieldWriter.holds_toFields h
  exact ⟨fun before c _ => (holds.after before).checksField c, holds.pairwise_written fields,
    (holds.after fields).readsBack⟩

/-- A row is left empty, a field is skipped, and a field that comes too late is refused. -/
theorem readsBack_skipping : ∃ w v, RowWriter.withCapacity 4 2 = .ok w ∧
    (w.after [.push ⟨2, 0⟩, .push ⟨0, .nan⟩, .endRow, .endRow]).toFields = .ok v ∧
    v.written [⟨.colUpper, [⟨1, 0⟩]⟩, ⟨.colLower, [⟨0, 0⟩]⟩, ⟨.rowUpper, []⟩] =
      [⟨.colUpper, [⟨1, 0⟩]⟩, ⟨.rowUpper, []⟩] ∧
    (v.after [⟨.colUpper, [⟨1, 0⟩]⟩, ⟨.colLower, [⟨0, 0⟩]⟩, ⟨.rowUpper, []⟩]).finish.ReadsBack 2
      [.push ⟨2, 0⟩, .push ⟨0, .nan⟩, .endRow, .endRow] [⟨.colUpper, [⟨1, 0⟩]⟩, ⟨.rowUpper, []⟩] := by
  have reserved : RowWriter.withCapacity 4 2 = .ok (RowWriter.blank 2) := rfl
  obtain ⟨checks, reads⟩ := readsBack_finish reserved [.push ⟨2, 0⟩, .push ⟨0, .nan⟩, .endRow, .endRow]
  obtain ⟨v, h⟩ := checks.ok_iff.2 ⟨rfl, rfl⟩
  obtain ⟨-, -, back⟩ := reads v h [⟨.colUpper, [⟨1, 0⟩]⟩, ⟨.colLower, [⟨0, 0⟩]⟩, ⟨.rowUpper, []⟩]
  have written : v.written [⟨.colUpper, [⟨1, 0⟩]⟩, ⟨.colLower, [⟨0, 0⟩]⟩, ⟨.rowUpper, []⟩] =
      [⟨.colUpper, [⟨1, 0⟩]⟩, ⟨.rowUpper, []⟩] := by
    obtain rfl := Except.ok.inj h
    rfl
  exact ⟨_, v, reserved, h, written, written ▸ back⟩

end Multistage
