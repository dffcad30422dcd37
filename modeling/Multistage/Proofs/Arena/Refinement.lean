import Multistage.Proofs.Arena.Ledger
/-!
# The arena refines its ledger

`refines_ledger`: along every history in which no slot is freed so often that its generations come round again, the
calls are steps of the ledger; a handle whose node was taken out is unknown to everything from then on; and the holders
of a scenario node are those that were added less those that were taken off.
-/
namespace Multistage
namespace Arena

variable {host : Host} {a b : Arena} {id : NodeId} {o : Occupant} {c : Call} {r : Except Error Answer}

/-! ## Counting holders -/

theorem holding_denseRow (i : NodeId) (core? : Option TemplateId) (row : Nat) (r : Except Error Answer) :
    holding id a (.denseRow i core? row) r = false ∧ releasing id a (.denseRow i core? row) r = false := by
  unfold holding releasing
  constructor <;> split <;> simp_all

/-- Nothing is added to or taken off a handle that finds nothing. -/
theorem quiet_step (step : Step host a c r b) (dead : a.occupant? id = none) :
    holding id a c r = false ∧ releasing id a c r = false := by
  have other : ∀ {i : NodeId} {o : Occupant}, a.occupant? i = some o → decide (i = id) = false := fun live =>
    decide_eq_false fun same => by
      rw [same, dead] at live
      cases live
  cases step with
  | refused => exact ⟨rfl, rfl⟩
  | template => exact ⟨rfl, rfl⟩
  | created _ _ asked =>
    rcases asked with rfl | ⟨rfl, -⟩
    · exact ⟨rfl, rfl⟩
    · refine ⟨?_, rfl⟩
      rw [holding, dead]
      exact Bool.and_false _
  | shared _ _ _ live =>
    refine ⟨?_, rfl⟩
    rw [holding, other live]
    rfl
  | retained live => exact ⟨other live, rfl⟩
  | counted live => exact ⟨other live, rfl⟩
  | dropped live => exact ⟨rfl, other live⟩
  | freed live => exact ⟨rfl, other live⟩
  | unread => exact holding_denseRow ..
  | read => exact holding_denseRow ..

/-- What was added and taken off by a step is the difference between the holders after it and before it. -/
def Counted (a : Arena) (id : NodeId) (c : Call) (r : Except Error Answer) (holders : Nat) : Prop :=
  ∃ o, a.occupant? id = some o ∧ o.node.isCore = false ∧
    holders + (releasing id a c r).toNat = o.holders + (holding id a c r).toNat

theorem counted_of_quiet (live : a.occupant? id = some o) (own : o.node.isCore = false)
    (quiet : holding id a c r = false ∧ releasing id a c r = false) : Counted a id c r o.holders :=
  ⟨o, live, own, by rw [quiet.1, quiet.2]⟩

/-- A call that sets the holders of a node counts right for it, and does not count for any other node. -/
theorem counted_of_setHolders {i : NodeId} {p : Occupant} {holders : Nat} (live : a.occupant? i = some o)
    (found : (a.setHolders i holders).occupant? id = some p) (own : p.node.isCore = false)
    (here : holders + (releasing i a c r).toNat = o.holders + (holding i a c r).toNat)
    (other : i ≠ id → holding id a c r = false ∧ releasing id a c r = false) : Counted a id c r p.holders := by
  rw [setHolders, occupant?_updateOccupant live] at found
  split at found
  · rename_i same
    obtain rfl := Option.some.inj found
    rw [same]
    exact ⟨o, live, own, here⟩
  · rename_i different
    exact counted_of_quiet found own (other (Ne.symm different))

/-- The holders of a scenario node after a step are counted, or it is new and has one. -/
theorem Sound.holders_step (h : Sound host a) (step : Step host a c r b) {p : Occupant}
    (found : b.occupant? id = some p) (own : p.node.isCore = false) :
    Counted a id c r p.holders ∨ (a.occupant? id = none ∧ p.holders = 1) := by
  cases step with
  | refused => exact .inl (counted_of_quiet found own ⟨rfl, rfl⟩)
  | @template snapshot assignment options t =>
    have added := h.freeListed.withTemplate t
    by_cases hi : id ∈ a.coreIds t
    · obtain ⟨stage, hs⟩ := List.mem_iff_getElem?.1 hi
      obtain rfl := Option.some.inj ((added.found hs).symm.trans found)
      cases own
    · rw [added.other id hi] at found
      exact .inl (counted_of_quiet found own ⟨rfl, rfl⟩)
  | @created c k stage overrides core node tally _ _ asked =>
    obtain ⟨fresh, occupants⟩ := occupant?_withNode h.freeListed (node.key host.hash) node
    rw [occupants] at found
    split at found
    · rename_i new
      obtain rfl := Option.some.inj found
      exact .inr ⟨new ▸ fresh, rfl⟩
    · rename_i old
      refine .inl (counted_of_quiet found own ?_)
      rcases asked with rfl | ⟨rfl, -⟩
      · exact ⟨rfl, rfl⟩
      · refine ⟨?_, rfl⟩
        rw [holding, decide_eq_false (Ne.symm old)]
        rfl
  | @shared k stage overrides core node tally i o _ _ _ live =>
    refine .inl (counted_of_setHolders live found own ?_ fun other => ⟨?_, rfl⟩)
    · rw [holding, live, decide_eq_true rfl]
      rfl
    · rw [holding, decide_eq_false other]
      rfl
  | @retained i o live =>
    refine .inl (counted_of_setHolders live found own ?_ fun other => ⟨decide_eq_false other, rfl⟩)
    rw [holding, decide_eq_true rfl]
    rfl
  | @counted i o live core =>
    have other : i ≠ id := fun same => by
      rw [same, found, Option.some.injEq] at live
      rw [live, core] at own
      cases own
    exact .inl (counted_of_quiet found own ⟨decide_eq_false other, rfl⟩)
  | @dropped i o live _ more =>
    refine .inl (counted_of_setHolders live found own ?_ fun other => ⟨rfl, decide_eq_false other⟩)
    rw [releasing, decide_eq_true rfl]
    exact Nat.sub_add_cancel (Nat.le_of_lt more)
  | @freed i o live =>
    rw [occupant?_remove live] at found
    split at found
    · cases found
    · rename_i other
      exact .inl (counted_of_quiet found own ⟨rfl, decide_eq_false (Ne.symm other)⟩)
  | unread => exact .inl (counted_of_quiet found own (holding_denseRow ..))
  | @read i core? row o rows r live =>
    have kept : holding id a (.denseRow i core? row) r = false ∧ _ := holding_denseRow i core? row r
    rw [setRows, occupant?_updateOccupant live] at found
    split at found
    · rename_i same
      obtain rfl := Option.some.inj found
      rw [same] at kept ⊢
      have counted : Counted a i (.denseRow i core? row) r o.holders := counted_of_quiet live own kept
      exact .inl counted
    · exact .inl (counted_of_quiet found own kept)

theorem holds_concat (calls : List Call) (c : Call) (id : NodeId) : holds host (calls ++ [c]) id =
    holds host calls id + (holding id (after host calls) c (answer host (after host calls) c)).toNat :=
  occurrences_concat ..

theorem releases_concat (calls : List Call) (c : Call) (id : NodeId) : releases host (calls ++ [c]) id =
    releases host calls id + (releasing id (after host calls) c (answer host (after host calls) c)).toNat :=
  occurrences_concat ..

theorem not_issued_of_dead {calls : List Call} (fresh : ¬ Issued host calls id) :
    (after host calls).occupant? id = none := by
  cases live : (after host calls).occupant? id with
  | none => rfl
  | some o => exact absurd ⟨calls, List.prefix_rfl, .of live trivial⟩ fresh

/-- **The holders of a scenario node are the one it was put in with, and those added, less those taken off.** -/
theorem holders_after (calls : List Call) (few : ∀ index, frees host calls index < UInt32.size) (id : NodeId) :
    (¬ Issued host calls id → holds host calls id = 0 ∧ releases host calls id = 0) ∧
      ∀ o, (after host calls).occupant? id = some o → o.node.isCore = false →
        o.holders + releases host calls id = 1 + holds host calls id := by
  induction calls using List.reverseRecOn with
  | nil => exact ⟨fun _ => ⟨rfl, rfl⟩, fun o found => by cases found⟩
  | append_singleton calls c ih =>
    have few : ∀ index, frees host calls index < UInt32.size := fun index =>
      Nat.lt_of_le_of_lt (frees_le_concat ..) (few index)
    obtain ⟨unissued, counts⟩ := ih few
    have step : Step host (after host calls) c _ _ := step_after calls c
    rw [holds_concat, releases_concat]
    constructor
    · intro fresh
      have fresh : ¬ Issued host calls id := fun issued => fresh (issued_concat.2 (.inr issued))
      obtain ⟨held, released⟩ := quiet_step step (not_issued_of_dead fresh)
      obtain ⟨holds, releases⟩ := unissued fresh
      rw [held, released, holds, releases]
      exact ⟨rfl, rfl⟩
    · intro p found own
      rcases (sound_after calls).holders_step step found own with ⟨o, live, own, counted⟩ | ⟨dead, one⟩
      · have := counts o live own
        omega
      · have fresh := not_issued_of_enter (few _) (not_finds dead) (.of found trivial)
        obtain ⟨held, released⟩ := quiet_step step dead
        obtain ⟨holds, releases⟩ := unissued fresh
        rw [held, released, holds, releases, one]

/-! ## Handles that find nothing -/

/-- Every use of a handle is refused, and changes nothing. -/
structure Unknown (a : Arena) (id : NodeId) : Prop where
  node : a.node id = .error (.unknownNode id)
  holders : a.holders id = .error (.unknownNode id)
  resolve : ∀ core?, a.resolve id core? = .error (.unknownNode id)
  retain : (retain id).run a = .error (.unknownNode id) a
  release : (release id).run a = .error (.unknownNode id) a
  fillField : ∀ core? f buffer, (a.fillField id core? f).run buffer = .error (.unknownNode id) buffer
  denseRow : ∀ core? row, (denseRow id core? row).run a = .error (.unknownNode id) a
  mergedRow : ∀ core? row, a.mergedRow id core? row = .error (.unknownNode id)
  mergedMatrix : ∀ core?, a.mergedMatrix id core? = .error (.unknownNode id)

theorem unknown_of_dead (dead : a.occupant? id = none) : a.Unknown id := by
  have occupant := occupant_eq_error dead
  have node : a.node id = .error (.unknownNode id) := by rw [node, occupant]; rfl
  have resolve : ∀ core?, a.resolve id core? = .error (.unknownNode id) := fun core? => by rw [resolve, node]; rfl
  exact {
    node, resolve
    holders := by rw [holders, occupant]; rfl
    retain := by rw [Arena.retain, run_bind_get, occupant, run_bind_error (run_attempt_error ..)]
    release := by rw [Arena.release, run_bind_get, occupant, run_bind_error (run_attempt_error ..)]
    fillField := fun core? f buffer => by rw [fillField, resolve, run_bind_error (run_attempt_error ..)]
    denseRow := fun core? row => run_denseRow_unresolved (resolve core?) row
    mergedRow := fun core? row => by rw [mergedRow, resolve]; rfl
    mergedMatrix := fun core? => by rw [mergedMatrix, resolve]; rfl }

/-! ## The refinement -/

def ledgerAfter (host : Host) (calls : List Call) : Ledger :=
  (after host calls).ledger (Issued host calls)

/-- What a caller can rely on along a history. -/
structure Refines (host : Host) (calls : List Call) : Prop where
  start : ledgerAfter host [] = ⟨#[], #[], fun _ => False, fun _ => none⟩
  step : ∀ pre c post, calls = pre ++ c :: post →
    (ledgerAfter host pre).Step host.limit c (answer host (after host pre) c) (ledgerAfter host (pre ++ [c]))
  shown : ∀ id r, (after host calls).table id = some r → (after host calls).holders id = .ok r.holders ∧
    ∃ n, (after host calls).node id = .ok n ∧ r.Stores n.template n.stage n.content
  unknown : ∀ id, (after host calls).table id = none → (after host calls).Unknown id
  gone : ∀ pre post id, calls = pre ++ post → Issued host pre id → (after host pre).table id = none →
    (after host calls).table id = none
  held : ∀ id r, (after host calls).table id = some r → r.content ≠ .core →
    1 ≤ r.holders ∧ r.holders + releases host calls id = 1 + holds host calls id
  core : ∀ id r, (after host calls).table id = some r → r.content = .core → r.holders = 1 ∧
    (release id).run (after host calls) = .error (.coreRelease r.stage) (after host calls)
  coreNode : ∀ k stage id, (after host calls).coreNode k stage = .ok id →
    (after host calls).table id = some ⟨k, stage, .core, 1⟩
  liveNodes : ∃ ids : List NodeId, ids.Nodup ∧ ids.length = (after host calls).liveNodes ∧
    ∀ id, id ∈ ids ↔ ∃ r, (after host calls).table id = some r

theorem ledger_step_after {calls : List Call} {c : Call} (few : ∀ index, frees host calls index < UInt32.size) :
    (ledgerAfter host calls).Step host.limit c (answer host (after host calls) c) (ledgerAfter host (calls ++ [c])) := by
  have given : Issued host (calls ++ [c]) = fun i => (after host (calls ++ [c])).Live i ∨ Issued host calls i :=
    funext fun i => propext issued_concat
  rw [ledgerAfter, ledgerAfter, given]
  exact (sound_after calls).ledger_step (fun i live => ⟨calls, List.prefix_rfl, live⟩) (step_after calls c)
    fun i old new => not_issued_of_enter (few _) old new

/-- **The arena refines its ledger**, along every history that frees no slot so often that its generations come round
again, and whatever the host. -/
theorem refines_ledger (calls : List Call) (few : ∀ index, frees host calls index < UInt32.size) :
    Refines host calls where
  start := Ledger.ext rfl rfl (funext fun i => propext ⟨not_issued_nil i, False.elim⟩) rfl
  step := fun pre c post split => ledger_step_after fun index =>
    Nat.lt_of_le_of_lt (split ▸ frees_le_append pre (c :: post) index) (few index)
  shown := fun id r found => by
    obtain ⟨o, live, rfl⟩ := table_eq_some.1 found
    have occupant := occupant_eq_ok.2 live
    exact ⟨by rw [holders, occupant]; rfl, o.node, by rw [node, occupant]; rfl, rfl, rfl, rfl⟩
  unknown := fun id dead => unknown_of_dead (Option.map_eq_none_iff.1 dead)
  gone := fun pre post id split issued dead => by
    rw [split] at few ⊢
    exact table_eq_none.2 (not_live_append issued (table_eq_none.1 dead) post (few _))
  held := fun id r found own => by
    obtain ⟨o, live, rfl⟩ := table_eq_some.1 found
    exact ⟨((sound_after calls).proper live).held,
      (holders_after calls few id).2 o live (Node.isCore_eq_false.2 own)⟩
  core := fun id r found core => by
    obtain ⟨o, live, rfl⟩ := table_eq_some.1 found
    have core : o.node.isCore = true := Node.isCore_eq_true.2 core
    exact ⟨(((sound_after calls).proper live).core core).1, run_release_core live core⟩
  coreNode := fun k stage id found => by
    obtain ⟨o, live, core, rfl, rfl⟩ := (sound_after calls).coreNode.1 found
    have single := (((sound_after calls).proper live).core core).1
    rw [table_of_live live, Occupant.record, Node.isCore_eq_true.1 core, single]
  liveNodes := ⟨_, nodup_liveIds _, length_liveIds _, fun id => mem_liveIds.trans
    ⟨fun ⟨o, live⟩ => ⟨o.record, table_of_live live⟩, fun ⟨_, found⟩ =>
      (table_eq_some.1 found).imp fun _ found => found.1⟩⟩

/-- The small history frees a slot once. -/
theorem refines_ledger_reusing : (∀ index, frees colliding reusingCalls index < UInt32.size) ∧
    frees colliding reusingCalls 2 = 1 ∧ Refines colliding reusingCalls := by
  have few : ∀ index, frees colliding reusingCalls index < UInt32.size := fun index =>
    Nat.lt_of_le_of_lt (occurrences_le_length ..) (by decide)
  exact ⟨few, by decide +kernel, refines_ledger reusingCalls few⟩

end Arena
end Multistage
