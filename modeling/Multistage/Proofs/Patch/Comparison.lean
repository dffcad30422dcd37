import Multistage.Proofs.Patch.Program
/-!
# Patches of the same content

`sameContent` compares packed tables, while a caller sees rows and fields.  Both see the same differences, because the rows
and the fields, laid end to end, are all that a patch consists of: an entry that goes over from the last row to the first
field leaves the items as they were and moves a start.

How a patch came to be makes no difference either.  A program says what each row and each field holds, and of its patch
nothing else is left: not the room it asked for, not the fields that it wrote empty or skipped, and not the calls that were
refused.
-/
namespace Multistage

open Sparse

namespace Patch

/-- Every reading of two patches gives the same entries, that is the same indices and the same value bits. -/
structure ReadsAlike (p q : Patch) : Prop where
  numRows : p.numRows = q.numRows
  row : ∀ i, i < p.numRows → p.row i = q.row i
  field : ∀ f, p.field f = q.field f

theorem sameContent_iff_readsAlike {p q : Patch} : p.sameContent q = true ↔ p.ReadsAlike q := by
  rw [sameContent_eq_true]
  constructor
  · rintro rfl
    exact ⟨rfl, fun _ _ => rfl, fun _ => rfl⟩
  · exact fun same => ext_read same.numRows same.row same.field

theorem closed_empty (numRows : Nat) : (empty numRows).parts.closed = List.replicate (numRows + 5) [] :=
  Parts.closed_closeUntil Parts.pending_empty _

theorem row_empty {numRows i : Nat} (h : i < numRows) : (empty numRows).row i = [] := by
  have read := row_eq (p := empty numRows) h
  rw [closed_empty, List.getElem?_replicate_of_lt (by omega)] at read
  exact (Option.some.inj read).symm

theorem field_empty (numRows : Nat) (f : Field) : (empty numRows).field f = [] := by
  have read := field_eq (p := empty numRows) f
  have inside : (empty numRows).numRows + f.rank < numRows + 5 := Nat.add_lt_add_left f.rank_lt numRows
  rw [closed_empty, List.getElem?_replicate_of_lt inside] at read
  exact (Option.some.inj read).symm

end Patch

/-! ## Programs -/

/-- The field calls that are not refused, if fields from some rank on are still to come: each call that is taken leaves
only later fields to the others. -/
def inOrder : Nat → List FieldCall → List FieldCall
  | _, [] => []
  | k, c :: calls => if k ≤ c.field.rank then c :: inOrder (c.field.rank + 1) calls else inOrder k calls

/-- **The calls that a writer takes are told by their order alone.** -/
theorem FieldWriter.Holds.written_eq : ∀ (calls : List FieldCall) {rows : List (List Entry)} {done : List FieldCall}
    {w : FieldWriter} {k : Nat}, Holds rows done w →
    (∀ f : Field, (∀ d ∈ done, d.field.rank < f.rank) ↔ k ≤ f.rank) → w.written calls = inOrder k calls
  | [], _, _, _, _, _, _ => rfl
  | c :: calls, rows, done, w, k, h, comes => by
    by_cases later : k ≤ c.field.rank
    · obtain ⟨w', ran, holds⟩ := h.write ((comes c.field).2 later)
      have next : ∀ f : Field, (∀ d ∈ done ++ [c], d.field.rank < f.rank) ↔ c.field.rank + 1 ≤ f.rank := fun f => by
        rw [List.forall_mem_append, List.forall_mem_singleton, comes f]
        omega
      rw [written_cons_ok (run_perform_ok ran), inOrder, if_pos later, holds.written_eq calls next]
    · have refused := (h.checksField c).refused ((comes c.field).not.2 later)
      rw [written_cons_error refused, inOrder, if_neg later, h.written_eq calls comes]

/-- The ways to come by a patch: without any entries, or by writing it. -/
inductive PatchProgram where
  | empty (numRows : Nat)
  | written (capacity numRows : Nat) (rows : List RowCall) (fields : List FieldCall)

namespace PatchProgram

def run (limit : Nat) : PatchProgram → Except Error Patch
  | .empty numRows => .ok (.empty numRows)
  | .written capacity numRows rows fields => do
    let w ← RowWriter.withCapacityBy limit capacity numRows
    let v ← (w.after rows).toFields
    return (v.after fields).finish

def numRows : PatchProgram → Nat
  | .empty numRows => numRows
  | .written _ numRows _ _ => numRows

/-- What a program pushes to a row. -/
def row : PatchProgram → Nat → List Entry
  | .empty _, _ => []
  | .written _ _ rows _, i => pushedAfter i rows

/-- What a program writes to a field, or nothing if it leaves the field out. -/
def field : PatchProgram → Field → List Entry
  | .empty _, _ => []
  | .written _ _ _ fields, f => (((inOrder 0 fields).find? (·.field = f)).map (·.entries)).getD []

/-- Two programs say the same of every row and every field. -/
structure SaysTheSame (f g : PatchProgram) : Prop where
  numRows : f.numRows = g.numRows
  row : ∀ i, i < f.numRows → f.row i = g.row i
  field : ∀ x, f.field x = g.field x

/-- What a program says is what is read. -/
structure ReadFrom (g : PatchProgram) (p : Patch) : Prop where
  numRows : p.numRows = g.numRows
  row : ∀ i, i < g.numRows → p.row i = g.row i
  field : ∀ f, p.field f = g.field f

theorem readFrom_run {limit : Nat} : ∀ {g : PatchProgram} {p : Patch}, g.run limit = .ok p → g.ReadFrom p
  | .empty numRows, p, ran => by
    obtain rfl := Except.ok.inj ran
    exact ⟨rfl, fun i hi => Patch.row_empty hi, Patch.field_empty numRows⟩
  | .written capacity numRows rows fields, p, ran => by
    simp only [run, bind_eq_ok, pure_eq_ok] at ran
    obtain ⟨w, reserved, v, closed, rfl⟩ := ran
    obtain rfl := RowWriter.withCapacityBy_eq_ok reserved
    have holds := FieldWriter.holds_toFields closed
    have taken : v.written fields = inOrder 0 fields := holds.written_eq fields fun f =>
      iff_of_true (fun _ none => nomatch none) (Nat.zero_le _)
    have back := (holds.after fields).readsBack
    rw [taken] at back
    refine ⟨back.numRows, back.row, fun f => ?_⟩
    rw [field]
    cases found : (inOrder 0 fields).find? (·.field = f) with
    | none =>
      have skipped := List.find?_eq_none.1 found
      exact back.skipped f fun c hc => of_decide_eq_false (Bool.eq_false_iff.2 (skipped c hc))
    | some c =>
      obtain rfl : c.field = f := by simpa using List.find?_some found
      exact back.field c (List.mem_of_find?_eq_some found)

theorem ReadFrom.readsAlike_iff {f g : PatchProgram} {p q : Patch} (hp : f.ReadFrom p) (hq : g.ReadFrom q) :
    p.ReadsAlike q ↔ f.SaysTheSame g := by
  constructor
  · intro same
    have numRows : f.numRows = g.numRows := by rw [← hp.numRows, same.numRows, hq.numRows]
    refine ⟨numRows, fun i hi => ?_, fun x => ?_⟩
    · rw [← hp.row i hi, same.row i (hp.numRows ▸ hi), hq.row i (numRows ▸ hi)]
    · rw [← hp.field x, same.field x, hq.field x]
  · intro same
    refine ⟨by rw [hp.numRows, same.numRows, hq.numRows], fun i hi => ?_, fun x => ?_⟩
    · rw [hp.numRows] at hi
      rw [hp.row i hi, same.row i hi, hq.row i (same.numRows ▸ hi)]
    · rw [hp.field x, same.field x, hq.field x]

end PatchProgram

namespace Patch

/-- **Patches have the same content exactly if every reading of them is the same**, and that is an equivalence under which
what is hashed agrees, and so do fingerprints.  Two programs come to the same content exactly if they say the same, however they say it. -/
theorem sameContent_observed :
    (∀ p q : Patch, p.sameContent q = true ↔ p.ReadsAlike q) ∧
      Equivalence (fun p q : Patch => p.sameContent q = true) ∧
      (∀ p q : Patch, p.sameContent q = true → p.hashed = q.hashed ∧ p.fingerprint = q.fingerprint) ∧
      ∀ (f g : PatchProgram) (l m : Nat) (p q : Patch), f.run l = .ok p → g.run m = .ok q →
        (p.sameContent q = true ↔ f.SaysTheSame g) := by
  refine ⟨fun p q => sameContent_iff_readsAlike, ⟨fun p => ?_, fun same => ?_, fun same₁ same₂ => ?_⟩,
    fun p q same => ?_, fun f g l m p q hp hq => ?_⟩
  · exact sameContent_eq_true.2 rfl
  · exact sameContent_eq_true.2 (sameContent_eq_true.1 same).symm
  · exact sameContent_eq_true.2 ((sameContent_eq_true.1 same₁).trans (sameContent_eq_true.1 same₂))
  · obtain rfl := sameContent_eq_true.1 same
    exact ⟨rfl, rfl⟩
  · exact sameContent_iff_readsAlike.trans
      ((PatchProgram.readFrom_run hp).readsAlike_iff (PatchProgram.readFrom_run hq))

/-- One program says what another one says, with less room, a field left out that the other writes empty, and a call that is
refused.  A third one says the last entry of the rows of the first field instead. -/
theorem sameContent_retold :
    let rows : List RowCall := [.push ⟨2, 0⟩, .endRow, .push ⟨2, .nan⟩]
    let upper : FieldCall := ⟨.colUpper, [⟨1, .nan⟩, ⟨1, 0⟩]⟩
    ∃ p q r, (PatchProgram.written 9 2 (rows ++ [.push ⟨0, -0⟩, .endRow]) [upper, ⟨.rowUpper, []⟩]).run 10 = .ok p ∧
      (PatchProgram.written 5 2 (rows ++ [.push ⟨0, -0⟩, .endRow]) [upper, ⟨.colLower, [⟨0, 0⟩]⟩]).run 10 = .ok q ∧
      (PatchProgram.written 5 2 (rows ++ [.endRow]) [⟨.colLower, [⟨0, -0⟩]⟩, upper]).run 10 = .ok r ∧
      p.sameContent q = true ∧ p.fingerprint = q.fingerprint ∧ p.sameContent r = false := by
  intro rows upper
  obtain ⟨-, -, hashed, told⟩ := sameContent_observed
  obtain ⟨p, hp⟩ : ∃ p, (PatchProgram.written 9 2 (rows ++ [.push ⟨0, -0⟩, .endRow])
    [upper, ⟨.rowUpper, []⟩]).run 10 = .ok p := ⟨_, rfl⟩
  obtain ⟨q, hq⟩ : ∃ q, (PatchProgram.written 5 2 (rows ++ [.push ⟨0, -0⟩, .endRow])
    [upper, ⟨.colLower, [⟨0, 0⟩]⟩]).run 10 = .ok q := ⟨_, rfl⟩
  obtain ⟨r, hr⟩ : ∃ r, (PatchProgram.written 5 2 (rows ++ [.endRow])
    [⟨.colLower, [⟨0, -0⟩]⟩, upper]).run 10 = .ok r := ⟨_, rfl⟩
  have same : p.sameContent q = true := (told _ _ _ _ p q hp hq).2
    ⟨rfl, fun _ _ => rfl, fun f => by cases f <;> rfl⟩
  refine ⟨p, q, r, hp, hq, hr, same, (hashed p q same).2, Bool.eq_false_iff.2 fun other => ?_⟩
  cases ((told _ _ _ _ p r hp hr).1 other).field .colLower

end Patch
end Multistage
