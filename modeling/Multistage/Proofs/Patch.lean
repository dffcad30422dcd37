import Multistage.Patch.Writer
/-!
# What is written into a patch is what it holds

`Parts.closed` is the list of the closed parts, and each way of writing appends to it: a row or a field is appended
as a whole, and a skipped field is appended empty.  So a finished patch is read off from what was written, and no
offset is mentioned outside this module.
-/
namespace Multistage

open Sparse

namespace Parts

variable {α : Type}

/-- The closed parts, in order. -/
def closed (p : Parts α) : List (List α) := (List.range p.count).map p.part

@[simp] theorem length_closed (p : Parts α) : p.closed.length = p.count := by simp [closed]

theorem getElem?_closed (p : Parts α) {i : Nat} (h : i < p.count) : p.closed[i]? = some (p.part i) := by
  simp [closed, h]

@[simp] theorem closed_empty : (empty : Parts α).closed = [] := rfl

@[simp] theorem closed_push (p : Parts α) (x : α) : (p.push x).closed = p.closed := by
  rw [closed, count_push, closed]
  exact List.map_congr_left fun i _ => part_push p x i

/-- **Closing appends what was pending.** -/
@[simp] theorem closed_close (p : Parts α) : p.close.closed = p.closed ++ [p.pending] := by
  rw [closed, count_close, List.range_succ, List.map_append, closed, List.map_singleton,
    part_close p (Nat.le_refl _), if_pos rfl]
  refine congrArg (· ++ _) (List.map_congr_left fun i hi => ?_)
  have hi := List.mem_range.1 hi
  rw [part_close p (Nat.le_of_lt hi), if_neg (Nat.ne_of_lt hi)]

theorem closed_pushAll : ∀ (p : Parts α) (xs : List α),
    (p.pushAll xs).closed = p.closed ∧ (p.pushAll xs).pending = p.pending ++ xs
  | p, [] => ⟨rfl, (List.append_nil _).symm⟩
  | p, x :: xs => by
    obtain ⟨closed, pending⟩ := closed_pushAll (p.push x) xs
    rw [closed_push] at closed
    rw [pending_push, List.append_assoc] at pending
    exact ⟨closed, pending⟩

theorem closed_repeat_close {p : Parts α} (h : p.pending = []) : ∀ k,
    (Nat.repeat close k p).closed = p.closed ++ List.replicate k []
  | 0 => (List.append_nil _).symm
  | k + 1 => by
    show (close (Nat.repeat close k p)).closed = _
    rw [closed_close, closed_repeat_close h k, pending_repeat_close h, List.append_assoc,
      ← List.replicate_succ']

/-- Parts closed without anything pending are empty. -/
theorem closed_closeUntil {p : Parts α} (h : p.pending = []) (n : Nat) :
    (p.closeUntil n).closed = p.closed ++ List.replicate (n - p.count) [] :=
  closed_repeat_close h _

/-! ### Laid end to end -/

theorem take_start (p : Parts α) : ∀ i, i ≤ p.count → p.items.toList.take (p.start i) = (p.closed.take i).flatten
  | 0, _ => by rw [start_zero]; rfl
  | i + 1, h => by
    have mono := p.start_mono (Nat.le_add_right i 1) h
    have closed : p.closed.take (i + 1) = p.closed.take i ++ [p.part i] := by
      rw [List.take_add_one, p.getElem?_closed h]
      rfl
    have part : p.part i = (p.items.toList.take (p.start (i + 1))).drop (p.start i) := by
      rw [Parts.part, Array.toList_extract, List.extract_eq_take_drop, List.drop_take]
    rw [closed, List.flatten_append, ← take_start p i (Nat.le_of_lt h), List.flatten_singleton, part,
      ← Nat.min_eq_left mono, ← List.take_take, Nat.min_eq_left mono, List.take_append_drop]

theorem start_eq (p : Parts α) {i : Nat} (h : i ≤ p.count) : p.start i = (p.closed.take i).flatten.length := by
  rw [← p.take_start i h, List.length_take, Array.length_toList, Nat.min_eq_left (p.start_le_size i)]

/-- **The items are those of the closed parts, one part after another, and then what is pending.** -/
theorem toList_items (p : Parts α) : p.items.toList = p.closed.flatten ++ p.pending := by
  have pending : p.pending = p.items.toList.drop (p.start p.count) := by
    rw [Parts.pending, Array.toList_extract, List.extract_eq_take_drop, List.take_of_length_le (by simp)]
  rw [← p.closed.take_of_length_le (Nat.le_of_eq p.length_closed), ← p.take_start p.count (Nat.le_refl _), pending,
    List.take_append_drop]

/-- Parts are known by what is closed and what is pending. -/
theorem ext_closed {p q : Parts α} (closed : p.closed = q.closed) (pending : p.pending = q.pending) : p = q := by
  have count : p.count = q.count := by rw [← length_closed, closed, length_closed]
  have items : p.items = q.items := by
    rw [← Array.toList_inj, p.toList_items, q.toList_items, closed, pending]
  have starts : p.starts = q.starts := by
    refine Array.ext (by rw [p.size_starts, q.size_starts, count]) fun i hp hq => ?_
    have start : p.start i = q.start i := by
      rw [p.start_eq (by rw [p.size_starts] at hp; omega), q.start_eq (by rw [q.size_starts] at hq; omega), closed]
    rwa [Parts.start, Parts.start, ← Array.getElem_eq_getD, ← Array.getElem_eq_getD] at start
  cases p
  cases q
  cases items
  cases starts
  rfl

end Parts

/-! ## Rows -/

namespace RowWriter

@[simp] theorem numRows_writeRow (w : RowWriter) (row : List Entry) : (w.writeRow row).numRows = w.numRows := by
  have numRows : ∀ (row : List Entry) (w : RowWriter), (row.foldl push w).numRows = w.numRows := by
    intro row
    induction row with
    | nil => intro w; rfl
    | cons e row ih => intro w; exact ih (w.push e)
  exact numRows row w

theorem parts_writeRow (w : RowWriter) (row : List Entry) : (w.writeRow row).parts = (w.parts.pushAll row).close := by
  have parts : ∀ (row : List Entry) (w : RowWriter), (row.foldl push w).parts = w.parts.pushAll row := by
    intro row
    induction row with
    | nil => intro w; rfl
    | cons e row ih => intro w; exact ih (w.push e)
  exact congrArg Parts.close (parts row w)

/-- **A row is written as a whole**, if nothing was pending. -/
theorem closed_writeRow {w : RowWriter} (h : w.parts.pending = []) (row : List Entry) :
    (w.writeRow row).parts.closed = w.parts.closed ++ [row] ∧ (w.writeRow row).parts.pending = [] := by
  obtain ⟨closed, pending⟩ := Parts.closed_pushAll w.parts row
  rw [parts_writeRow, Parts.closed_close, closed, pending, h, List.nil_append]
  exact ⟨rfl, Parts.pending_close _⟩

theorem closed_writeRows : ∀ (rows : List (List Entry)) {w : RowWriter}, w.parts.pending = [] →
    (rows.foldl writeRow w).parts.closed = w.parts.closed ++ rows ∧ (rows.foldl writeRow w).parts.pending = [] ∧
      (rows.foldl writeRow w).numRows = w.numRows
  | [], w, h => ⟨(List.append_nil _).symm, h, rfl⟩
  | row :: rows, w, h => by
    obtain ⟨closed, pending⟩ := closed_writeRow h row
    obtain ⟨closeds, pendings, numRows⟩ := closed_writeRows rows pending
    rw [List.foldl_cons, closeds, closed, List.append_assoc]
    exact ⟨rfl, pendings, numRows.trans (numRows_writeRow w row)⟩

/-- The fields can begin once the declared rows are closed and nothing is pending. -/
theorem toFields_eq_ok {w : RowWriter} {f : FieldWriter} (count : w.parts.count = w.numRows)
    (complete : w.parts.pending = []) : w.toFields = .ok f ↔ f.parts = w.parts ∧ f.numRows = w.numRows := by
  obtain ⟨parts, numRows, _, _⟩ := f
  rw [toFields, dif_pos count, dif_pos complete, Except.ok.injEq, FieldWriter.mk.injEq]
  exact ⟨fun h => ⟨h.1.symm, h.2.symm⟩, fun h => ⟨h.1.symm, h.2.symm⟩⟩

theorem exists_toFields {w : RowWriter} (count : w.parts.count = w.numRows) (complete : w.parts.pending = []) :
    ∃ f, w.toFields = .ok f :=
  ⟨_, by rw [toFields, dif_pos count, dif_pos complete]⟩

end RowWriter

/-! ## Fields -/

namespace FieldWriter

/-- A field in time is appended as a whole, behind the fields that were skipped. -/
theorem exists_write (w : FieldWriter) {f : Field} (entries : List Entry)
    (inTime : w.parts.count ≤ w.numRows + f.rank) : ∃ w', w.write f entries = .ok w' ∧ w'.numRows = w.numRows ∧
      w'.parts.closed = w.parts.closed ++ List.replicate (w.numRows + f.rank - w.parts.count) [] ++ [entries] := by
  refine ⟨_, dif_pos inTime, rfl, ?_⟩
  obtain ⟨closed, pending⟩ := Parts.closed_pushAll (w.parts.closeUntil (w.numRows + f.rank)) entries
  rw [Parts.closed_close, closed, pending, Parts.pending_closeUntil w.complete, Parts.closed_closeUntil w.complete]
  rfl

@[simp] theorem numRows_finish (w : FieldWriter) : w.finish.numRows = w.numRows := rfl

theorem closed_finish (w : FieldWriter) :
    w.finish.parts.closed = w.parts.closed ++ List.replicate (w.numRows + 5 - w.parts.count) [] :=
  Parts.closed_closeUntil w.complete _

end FieldWriter

namespace Patch

/-! ## Reading -/

variable {p : Patch}

theorem row_eq {i : Nat} (h : i < p.numRows) : p.parts.closed[i]? = some (p.row i) :=
  p.parts.getElem?_closed (by rw [p.count]; omega)

theorem field_eq (f : Field) : p.parts.closed[p.numRows + f.rank]? = some (p.field f) :=
  p.parts.getElem?_closed (by have := f.rank_lt; rw [p.count]; omega)

theorem closed_eq (p : Patch) : p.parts.closed = (List.range p.numRows).map p.row ++ Field.all.map p.field := by
  rw [Parts.closed, p.count, List.range_add, List.map_append, List.map_map]
  rfl

/-- A patch is known by its rows and its fields. -/
theorem ext_read {p q : Patch} (numRows : p.numRows = q.numRows) (row : ∀ i, i < p.numRows → p.row i = q.row i)
    (field : ∀ f, p.field f = q.field f) : p = q := by
  have rows : (List.range p.numRows).map p.row = (List.range q.numRows).map q.row :=
    numRows ▸ List.map_congr_left fun i hi => row i (List.mem_range.1 hi)
  have parts : p.parts = q.parts :=
    Parts.ext_closed (by rw [p.closed_eq, q.closed_eq, rows, List.map_congr_left fun f _ => field f])
      (p.complete.trans q.complete.symm)
  cases p
  cases q
  cases parts
  cases numRows
  rfl

end Patch
end Multistage
