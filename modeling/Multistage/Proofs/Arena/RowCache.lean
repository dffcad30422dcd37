import Mathlib.Data.List.Dedup
import Multistage.Proofs.Arena.Failure
import Multistage.Proofs.Arena.Safety
/-!
# Rows that are kept

A node keeps every row that it was asked for, and nobody can tell: a row that was kept is answered as it would be read again,
and a call that is refused is refused before the kept rows are looked at (`readsRows_after`).  Two facts are carried along a
history for this: live nodes keep only what they would read again (`AllFaithful`), and which rows they keep is which rows
they were asked for since they were put in (`mem_denseRows_iff`).
-/
namespace Multistage
namespace Arena

variable {host : Host} {a b : Arena} {c : Call} {r : Except Error Answer} {id : NodeId} {o : Occupant}

/-! ## Asking for a row -/

/-- Every live node keeps only what it would read again from its template. -/
def AllFaithful (a : Arena) : Prop := ∀ {id : NodeId} {o : Occupant} {t : Template}, a.occupant? id = some o →
  a.templates[o.node.template.index]? = some t → o.node.Faithful t

theorem answer_denseRow_error {core? : Option TemplateId} {row : Nat} {e : Error}
    (ran : ∃ b, (denseRow id core? row).run a = .error e b) :
    answer host a (.denseRow id core? row) = .error e := by
  obtain ⟨b, ran⟩ := ran
  have failed : (perform host (.denseRow id core? row)).run a = .error e b := run_bind_error ran
  rw [answer, failed]

/-- A call that is refused leaves the arena as it was. -/
theorem next_of_error {e : Error} (refused : answer host a c = .error e) : next host a c = a := by
  cases ran : (perform host c).run a with
  | ok x b =>
    rw [answer, ran] at refused
    cases refused
  | error d b =>
    rw [next, ran]
    exact atomic_perform host c a d b ran

/-- A node that is asked with a template that is not its own answers so, whatever the row. -/
theorem Sound.answer_foreign (h : Sound host a) (live : a.occupant? id = some o) {k : TemplateId} {t : Template}
    (found : a.templates[k.index]? = some t) (foreign : k ≠ o.node.template) (row : Nat) :
    answer host a (.denseRow id (some k) row) = .error (.foreignTemplate o.node.template k) := by
  obtain rfl : t.id = k := (h.template found).1
  have refuses : o.node.Refuses t := Node.refuses_of_ne foreign
  exact answer_denseRow_error ⟨_, run_denseRow_error live (resolve_eq_ok.2 ⟨o, live, rfl, found⟩) (refuses.denseRow row)⟩

section Own

variable (faithful : a.AllFaithful) (live : a.occupant? id = some o) {core : Template}
  (found : a.templates[o.node.template.index]? = some core) {core? : Option TemplateId}
  (own : core?.getD o.node.template = o.node.template) {row : Nat}
include faithful live found own

/-- A row that cannot be read is refused. -/
theorem AllFaithful.answer_error {e : Error} (failed : o.node.storedRow core row = .error e) :
    answer host a (.denseRow id core? row) = .error e := by
  have ended := Node.run_denseRow_error (faithful live found) failed
  exact answer_denseRow_error ⟨_, run_denseRow_error live (resolve_eq_ok.2 ⟨o, live, rfl, own.symm ▸ found⟩) ended⟩

/-- A row that can be read is answered in dense form, and kept from then on. -/
theorem AllFaithful.answer_ok (host : Host) {v : SparseVector}
    (stored : o.node.storedRow core row = .ok v) :
    ∃ rows, answer host a (.denseRow id core? row) = .ok (.row (v.fill 0)) ∧
      next host a (.denseRow id core? row) = a.setRows id rows ∧
        ({ o.node with denseRows := rows } : Node).Faithful core ∧ ∀ r, r ∈ rows ↔ r = row ∨ r ∈ o.node.denseRows := by
  obtain ⟨rows, ended, kept⟩ := Node.run_denseRow_ok (faithful live found) stored
  have ran : (perform host (.denseRow id core? row)).run a = .ok (.row (v.fill 0)) (a.setRows id rows) :=
    run_bind_ok (run_denseRow_ok live (resolve_eq_ok.2 ⟨o, live, rfl, own.symm ▸ found⟩) ended)
  refine ⟨rows, ?_, ?_, kept⟩
  · rw [answer, ran]
  · rw [next, ran]

end Own

/-- **A row that is asked for is read and kept, or nothing changes.** -/
theorem Sound.denseRow_cases (h : Sound host a) (faithful : a.AllFaithful) (live : a.occupant? id = some o)
    (core? : Option TemplateId) (row : Nat) :
    (∃ e, answer host a (.denseRow id core? row) = .error e) ∨
      ∃ core x rows, a.templates[o.node.template.index]? = some core ∧
        answer host a (.denseRow id core? row) = .ok x ∧ next host a (.denseRow id core? row) = a.setRows id rows ∧
          ({ o.node with denseRows := rows } : Node).Faithful core ∧
            ∀ r, r ∈ rows ↔ r = row ∨ r ∈ o.node.denseRows := by
  cases resolved : a.resolve id core? with
  | error e => exact .inl ⟨e, answer_denseRow_error ⟨a, run_denseRow_unresolved resolved row⟩⟩
  | ok r =>
    obtain ⟨n, t⟩ := r
    obtain ⟨p, there, rfl, found⟩ := resolve_eq_ok.1 resolved
    obtain rfl := Option.some.inj (live.symm.trans there)
    by_cases own : core?.getD o.node.template = o.node.template
    · rw [own] at found
      cases stored : o.node.storedRow t row with
      | error e => exact .inl ⟨e, faithful.answer_error live found own stored⟩
      | ok v =>
        obtain ⟨rows, answered, kept⟩ := faithful.answer_ok live found own host stored
        exact .inr ⟨t, _, rows, found, answered, kept⟩
    · cases core? with
      | none => exact absurd rfl own
      | some k => exact .inl ⟨_, h.answer_foreign live found own row⟩

/-! ## Along a history -/

/-- The template of a node is the one that it was before a step. -/
theorem Sound.own_template (h : Sound host a) (step : Step host a c r b) (live : a.occupant? id = some o)
    {core : Template} (found : b.templates[o.node.template.index]? = some core) :
    a.templates[o.node.template.index]? = some core := by
  obtain ⟨t, there, -⟩ := (h.proper live).anchored
  obtain rfl := Option.some.inj ((h.template_step step there).symm.trans found)
  exact there

theorem Sound.allFaithful_next (h : Sound host a) (faithful : a.AllFaithful) (c : Call) :
    (next host a c).AllFaithful := by
  intro id p t found there
  have step := step_perform host a c
  cases h.continues_step step found with
  | new _ empty _ => exact Node.faithful_of_empty empty
  | same live same =>
    rw [same] at there ⊢
    exact faithful live (h.own_template step live there)
  | @asked o core? row rows live asked _ =>
    subst asked
    rcases h.denseRow_cases faithful live core? row with ⟨e, refused⟩ | ⟨core, x, rows, own, -, stepped, kept, -⟩
    · rw [next_of_error refused] at found there
      exact faithful found there
    · rw [stepped, setRows, occupant?_updateOccupant live, if_pos rfl] at found
      obtain rfl := Option.some.inj found
      rw [stepped] at there
      obtain rfl := Option.some.inj (own.symm.trans there)
      exact kept

/-- **Live nodes keep only what they would read again**, along every history. -/
theorem allFaithful_after (calls : List Call) : (after host calls).AllFaithful := by
  induction calls using List.reverseRecOn with
  | nil => exact fun live => by cases live
  | append_singleton calls c ih =>
    rw [after_concat]
    exact (sound_after calls).allFaithful_next ih c

/-- The row of a node that a call was answered with. -/
def rowRead (id : NodeId) (c : Call) (r : Except Error Answer) : Option Nat :=
  match c, r with
  | .denseRow i _ row, .ok _ => if i = id then some row else none
  | _, _ => none

/-- The rows of a node that were asked for and answered, the history going on from an arena. -/
def rowsRead (host : Host) (id : NodeId) : Arena → List Call → List Nat
  | _, [] => []
  | a, c :: calls => (rowRead id c (answer host a c)).toList ++ rowsRead host id (next host a c) calls

theorem rowsRead_concat (id : NodeId) (c : Call) : ∀ (calls : List Call) (a : Arena),
    rowsRead host id a (calls ++ [c]) = rowsRead host id a calls ++
      (rowRead id c (answer host (calls.foldl (next host) a) c)).toList
  | [], a => List.append_nil _
  | d :: calls, a => by
    rw [List.cons_append, rowsRead, rowsRead_concat id c calls, rowsRead, List.foldl_cons, List.append_assoc]

theorem rowRead_eq_none (quiet : ∀ core? row, c ≠ .denseRow id core? row) (r : Except Error Answer) :
    rowRead id c r = none := by
  unfold rowRead
  split
  · rename_i i core? row _
    exact if_neg fun same => quiet core? row (by rw [same])
  · rfl

theorem rowRead_denseRow (core? : Option TemplateId) (row : Nat) (r : Except Error Answer) :
    rowRead id (.denseRow id core? row) r = if r.isOk then some row else none := by
  cases r with
  | error e => rfl
  | ok x => exact if_pos rfl

/-- A node is put in by a call, and is there ever since. -/
structure LiveSince (host : Host) (pre : List Call) (c : Call) (post : List Call) (id : NodeId) : Prop where
  before : ¬ (after host pre).Live id
  since : ∀ mid, mid <+: post → (after host (pre ++ c :: mid)).Live id

theorem exists_liveSince {calls : List Call} (live : (after host calls).Live id) :
    ∃ pre c post, calls = pre ++ c :: post ∧ LiveSince host pre c post id := by
  induction calls using List.reverseRecOn with
  | nil =>
    obtain ⟨o, found, -⟩ := live
    cases found
  | append_singleton calls d ih =>
    by_cases old : (after host calls).Live id
    · obtain ⟨pre, c, post, rfl, since⟩ := ih old
      refine ⟨pre, c, post ++ [d], by simp, since.before, fun mid before => ?_⟩
      rcases List.prefix_concat_iff.1 before with rfl | before
      · simpa using live
      · exact since.since mid before
    · refine ⟨calls, d, [], rfl, old, fun mid before => ?_⟩
      rw [List.prefix_nil.1 before]
      exact live

theorem LiveSince.init {pre post : List Call} {d : Call} (h : LiveSince host pre c (post ++ [d]) id) :
    LiveSince host pre c post id :=
  ⟨h.before, fun mid before => h.since mid (before.trans (List.prefix_append ..))⟩

/-- A node that is there before a call and after it keeps the row that the call was answered with, and what it kept. -/
theorem Sound.mem_denseRows_next (h : Sound host a) (faithful : a.AllFaithful) {p : Occupant}
    (live : a.occupant? id = some o) (found : (next host a c).occupant? id = some p) (row : Nat) :
    row ∈ p.node.denseRows ↔ row ∈ o.node.denseRows ∨ row ∈ rowRead id c (answer host a c) := by
  cases h.continues_step (step_perform host a c) found with
  | new dead => exact absurd (dead.symm.trans live) (Option.some_ne_none o).symm
  | same there same quiet =>
    obtain rfl := Option.some.inj (live.symm.trans there)
    rw [rowRead_eq_none quiet, same]
    simp
  | @asked q core? asked rows there call _ =>
    obtain rfl := Option.some.inj (live.symm.trans there)
    subst call
    rw [rowRead_denseRow]
    rcases h.denseRow_cases faithful live core? asked with ⟨e, refused⟩ | ⟨core, x, rows, -, answered, stepped, -, kept⟩
    · rw [next_of_error refused, live] at found
      obtain rfl := Option.some.inj found
      rw [refused]
      simp [Except.isOk, Except.toBool]
    · rw [stepped, setRows, occupant?_updateOccupant live, if_pos rfl] at found
      obtain rfl := Option.some.inj found
      rw [answered]
      simp [Except.isOk, Except.toBool, kept, or_comm, eq_comm]

/-- **The rows that a node keeps are those that it was asked for**, since it was put in, and that it answered. -/
theorem mem_denseRows_iff {pre post : List Call} (since : LiveSince host pre c post id)
    (found : (after host (pre ++ c :: post)).occupant? id = some o) (row : Nat) :
    row ∈ o.node.denseRows ↔ row ∈ rowsRead host id (after host (pre ++ [c])) post := by
  induction post using List.reverseRecOn generalizing o with
  | nil =>
    have dead : ∀ {p}, (after host pre).occupant? id ≠ some p := fun live => since.before (.of live trivial)
    cases (sound_after pre).continues_step (step_after pre c) found with
    | new _ empty _ => simp [empty, rowsRead]
    | same live => exact absurd live dead
    | asked live => exact absurd live dead
  | append_singleton post d ih =>
    obtain ⟨p, live, -⟩ := since.since post (List.prefix_append ..)
    have folded : post.foldl (next host) (after host (pre ++ [c])) = after host (pre ++ c :: post) := by
      rw [← after_append, List.append_assoc, List.singleton_append]
    rw [← List.cons_append, ← List.append_assoc, after_concat] at found
    rw [rowsRead_concat, folded, List.mem_append, Option.mem_toList, ← ih since.init live]
    exact (sound_after _).mem_denseRows_next (allFaithful_after _) live found row

/-- As many rows are kept as different ones were read. -/
theorem size_eq_length_dedup {β : Type} {rows : Std.TreeMap Nat β} {l : List Nat} (same : ∀ row, row ∈ rows ↔ row ∈ l) :
    rows.size = l.dedup.length := by
  rw [← Std.TreeMap.length_keys]
  refine ((List.perm_ext_iff_of_nodup ?_ l.nodup_dedup).2 fun row => ?_).length_eq
  · exact Std.TreeMap.nodup_keys
  · rw [Std.TreeMap.mem_keys, same, List.mem_dedup]

/-! ## Reading rows -/

/-- What a live node answers when it is asked for a row, and which rows it keeps. -/
structure ReadsRows (host : Host) (calls : List Call) (id : NodeId) (n : Node) (core : Template) : Prop where
  own : (after host calls).template n.template = .ok core
  numCols : n.numCols = core.numCols
  /-- A row is answered as it is stored, with zeros in between, and it does not matter whether it was kept. -/
  read : ∀ core? row, core?.getD n.template = n.template → row < n.rowCount → ∃ v dense,
    n.storedRow core row = .ok v ∧ answer host (after host calls) (.denseRow id core? row) = .ok (.row dense) ∧
      dense.size = n.numCols ∧ ∀ j, j < n.numCols → dense[j]? = some ((v.get? j).getD 0)
  unkept : ∀ row, answered (Node.denseRow core row) n = answered (Node.denseRow core row) { n with denseRows := ∅ }
  foreign : ∀ k t row, (after host calls).template k = .ok t → k ≠ n.template →
    answer host (after host calls) (.denseRow id (some k) row) = .error (.foreignTemplate n.template k)
  beyond : ∀ core? row, core?.getD n.template = n.template → n.rowCount ≤ row →
    answer host (after host calls) (.denseRow id core? row) = .error (.indexOutOfRange .row row n.rowCount)
  unchanged : ∀ core? row e, answer host (after host calls) (.denseRow id core? row) = .error e →
    next host (after host calls) (.denseRow id core? row) = after host calls
  putIn : ∃ pre c post, calls = pre ++ c :: post ∧ LiveSince host pre c post id
  kept : ∀ pre c post, calls = pre ++ c :: post → LiveSince host pre c post id →
    n.denseRows.size = (rowsRead host id (after host (pre ++ [c])) post).dedup.length ∧
      ∀ row, row ∈ n.denseRows ↔ row ∈ rowsRead host id (after host (pre ++ [c])) post
  /-- A node begins with no rows, also where another one was before. -/
  fresh : ∀ pre c, calls = pre ++ [c] → ¬ (after host pre).Live id → n.denseRows.size = 0

/-- **Keeping rows cannot be noticed**, along every history and whatever the host. -/
theorem readsRows_after (host : Host) (calls : List Call) {n : Node}
    (there : (after host calls).node id = .ok n) : ∃ core, ReadsRows host calls id n core := by
  have sound : Sound host (after host calls) := sound_after calls
  have faithful : (after host calls).AllFaithful := allFaithful_after calls
  obtain ⟨o, live, rfl⟩ := node_eq_ok.1 there
  obtain ⟨core, found, made⟩ := allMade_after calls live
  obtain ⟨named, built⟩ := sound.template found
  obtain ⟨-, answers, -⟩ := Node.safe_of_madeBy built made
  have numCols := made.numCols built
  have kept : ∀ pre c post, calls = pre ++ c :: post → LiveSince host pre c post id →
      o.node.denseRows.size = (rowsRead host id (after host (pre ++ [c])) post).dedup.length ∧
        ∀ row, row ∈ o.node.denseRows ↔ row ∈ rowsRead host id (after host (pre ++ [c])) post := by
    rintro pre c post rfl since
    exact ⟨size_eq_length_dedup (mem_denseRows_iff since live), mem_denseRows_iff since live⟩
  refine ⟨core, {
    own := template_eq_ok.2 found
    numCols
    read := fun core? row own lt => ?_
    unkept := fun row => ?_
    foreign := fun k t row given other => sound.answer_foreign live (template_eq_ok.1 given) other row
    beyond := fun core? row own le => faithful.answer_error live found own (Node.storedRow_beyond named le)
    unchanged := fun core? row e refused => next_of_error refused
    putIn := exists_liveSince (.of live trivial)
    kept
    fresh := fun pre c split dead => ?_ }⟩
  · obtain ⟨v, stored, dim⟩ := answers.storedRow row lt
    obtain ⟨rows, answered, -⟩ := faithful.answer_ok live found own host stored
    refine ⟨v, v.fill 0, stored, answered, by rw [SparseVector.size_fill, dim, numCols], fun j hj => ?_⟩
    rw [SparseVector.fill_getElem?, if_pos (by rw [dim, ← numCols]; exact hj)]
  · rw [(Node.denseRow_of_faithful (faithful live found) row).1,
      (Node.denseRow_of_faithful (Node.faithful_of_empty rfl) row).1]
    rfl
  · have since : LiveSince host pre c [] id := ⟨dead, fun mid before => by
      rw [List.prefix_nil.1 before, ← split]
      exact .of live trivial⟩
    exact (kept pre c [] split since).1

/-- A row of a node is read and the node let go of; in its slot another one is asked for the row, for one that does not
exist, and for the first one again. -/
def rereadingCalls : List Call := [
  .addTemplate interleaved interleavedStages {},
  .addNode ⟨0⟩ 1 interleavedOverrides,
  .denseRow ⟨2, 0⟩ none 0,
  .release ⟨2, 0⟩,
  .addNode ⟨0⟩ 1 interleavedOverrides,
  .denseRow ⟨2, 1⟩ none 0,
  .denseRow ⟨2, 1⟩ none 7,
  .denseRow ⟨2, 1⟩ (some ⟨0⟩) 0]

theorem readsRows_rereading : ∃ n, (after colliding rereadingCalls).node ⟨2, 1⟩ = .ok n ∧ n.denseRows.size = 1 ∧
    rowsRead colliding ⟨2, 1⟩ empty rereadingCalls = [0, 0] ∧
      ∃ core, ReadsRows colliding rereadingCalls ⟨2, 1⟩ n core := by
  obtain ⟨n, there⟩ := exists_of_isOk
    (show ((after colliding rereadingCalls).node ⟨2, 1⟩).isOk = true by decide +kernel)
  have one : ((after colliding rereadingCalls).node ⟨2, 1⟩).toOption.all (fun n => decide (n.denseRows.size = 1)) =
      true := by decide +kernel
  rw [there] at one
  exact ⟨n, there, of_decide_eq_true one, by decide +kernel, readsRows_after colliding rereadingCalls there⟩

end Arena
end Multistage
