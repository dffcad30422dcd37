import Multistage.Proofs.Arena.Refinement
/-!
# How far a handle reaches

A handle finds what stands in its slot whenever the slot has been freed as often as the handle's generation says,
counted modulo the number of generations (`occupant?_after`).  Nothing else matters: not who was given the handle, nor
what stood in the slot then.  So after its node is freed a handle finds nothing for as long as the generations have not
come round, and when they have it finds what stands there then.

That the generations can come round is shown by a history that makes them (`churn`): a node is added and taken out
again, each time in the same slot, since the slot freed last is used first.
-/
namespace Multistage
namespace Arena

variable {host : Host} {a : Arena} {id : NodeId} {o : Occupant}

/-! ## Histories that go on -/

theorem occurrences_append (kind : Arena → Call → Except Error Answer → Bool) (post : List Call) :
    ∀ (pre : List Call) (a : Arena), occurrences host kind a (pre ++ post) =
      occurrences host kind a pre + occurrences host kind (pre.foldl (next host) a) post
  | [], _ => (Nat.zero_add _).symm
  | c :: pre, a => by
    rw [List.cons_append, occurrences, occurrences, occurrences_append kind post pre, List.foldl_cons, Nat.add_assoc]

/-- How often a slot is freed by the calls that follow a history. -/
def freesSince (host : Host) (pre post : List Call) (index : Nat) : Nat :=
  occurrences host (freeing index) (after host pre) post

theorem freesSince_append (pre mid post : List Call) (index : Nat) : freesSince host pre (mid ++ post) index =
    freesSince host pre mid index + freesSince host (pre ++ mid) post index := by
  rw [freesSince, occurrences_append, ← after_append]
  rfl

theorem frees_append (pre post : List Call) (index : Nat) :
    frees host (pre ++ post) index = frees host pre index + freesSince host pre post index :=
  occurrences_append ..

theorem freesSince_release {pre : List Call} (freed : answer host (after host pre) (.release id) = .ok (.freed true)) :
    freesSince host pre [.release id] id.index = 1 := by
  have counted : freeing id.index (after host pre) (.release id) (.ok (.freed true)) = true := decide_eq_true rfl
  rw [freesSince, occurrences, occurrences, freed, counted]
  rfl

/-- The node of a handle is taken out by one of the calls that follow a history. -/
def FreedIn (host : Host) (pre post : List Call) (id : NodeId) : Prop :=
  ∃ mid rest, post = mid ++ .release id :: rest ∧
    answer host (after host (pre ++ mid)) (.release id) = .ok (.freed true)

theorem FreedIn.freesSince_pos {pre post : List Call} (freed : FreedIn host pre post id) :
    0 < freesSince host pre post id.index := by
  obtain ⟨mid, rest, rfl, freed⟩ := freed
  rw [← List.singleton_append, freesSince_append, freesSince_append, freesSince_release freed]
  omega

/-! ## What a handle finds -/

theorem generation_eq_iff (calls : List Call) (id : NodeId) :
    (after host calls).generation id.index = id.generation ↔
      frees host calls id.index % UInt32.size = id.generation.toNat := by
  rw [generation_after, ← UInt32.toNat_inj, UInt32.toNat_ofNat']

/-- **A handle finds what stands in its slot, if the slot was freed as often as the generation says.** -/
theorem occupant?_after (calls : List Call) : (after host calls).occupant? id = some o ↔
    frees host calls id.index % UInt32.size = id.generation.toNat ∧ (after host calls).at? id.index = some o := by
  rw [occupant?_eq_some, generation_eq_iff]

theorem frees_of_live {calls : List Call} (live : (after host calls).Live id) :
    frees host calls id.index % UInt32.size = id.generation.toNat := by
  obtain ⟨o, live, -⟩ := live
  exact ((occupant?_after calls).1 live).1

/-- **A handle whose slot was freed since finds nothing**, until the generations have come round. -/
theorem occupant?_of_freesSince {pre post : List Call} (live : (after host pre).Live id)
    (some : 0 < freesSince host pre post id.index) (few : freesSince host pre post id.index < UInt32.size) :
    (after host (pre ++ post)).occupant? id = none := by
  cases found : (after host (pre ++ post)).occupant? id with
  | none => rfl
  | some o =>
    have before := frees_of_live live
    have now := ((occupant?_after _).1 found).1
    have size : UInt32.size = 4294967296 := rfl
    rw [frees_append, size] at now
    rw [size] at before few
    omega

/-- **When the generations have come round a handle finds what stands in its slot then.** -/
theorem occupant?_of_size {pre post : List Call} (live : (after host pre).Live id)
    (round : freesSince host pre post id.index = UInt32.size)
    (stands : (after host (pre ++ post)).at? id.index = some o) : (after host (pre ++ post)).occupant? id = some o := by
  refine (occupant?_after _).2 ⟨?_, stands⟩
  rw [frees_append, round, Nat.add_mod_right]
  exact frees_of_live live

/-! ## Making the generations come round -/

section Churn

variable {calls : List Call} {k : TemplateId} {stage : Nat} {overrides : Overrides} {core : Template} {node : Node}
  {tally : Tally}

/-- The handle that the next node will be given. -/
def nextId (a : Arena) : NodeId := ⟨a.nextIndex, a.generation a.nextIndex⟩

theorem freesSince_addNode (pre : List Call) (index : Nat) :
    freesSince host pre [.addNode k stage overrides] index = 0 := by
  have kept : ∀ (a : Arena) r, freeing index a (.addNode k stage overrides) r = false := by
    intro a r
    unfold freeing
    split <;> simp_all
  rw [freesSince, occurrences, occurrences, kept]
  rfl

/-- Adding a node gives it the next handle and one holder. -/
theorem Sound.next_addNode (h : Sound host a) (found : a.templates[k.index]? = some core)
    (accepted : Node.ofOverridesBy host.limit core stage overrides = .ok (node, tally)) :
    answer host a (.addNode k stage overrides) = .ok (.node a.nextId tally) ∧
      (next host a (.addNode k stage overrides)).templates = a.templates ∧
      (next host a (.addNode k stage overrides)).occupant? a.nextId =
        some { node, holders := 1, key? := some (node.key host.hash) } := by
  have id : a.newId (node.key host.hash) node = a.nextId := (h.freeListed.insert_eq _).1
  have ran : (perform host (.addNode k stage overrides)).run a = .ok (.node a.nextId tally) _ :=
    id ▸ run_bind_ok (run_addNode found accepted)
  rw [answer, next, ran]
  refine ⟨rfl, templates_withNode .., ?_⟩
  rw [(occupant?_withNode h.freeListed ..).2, if_pos id.symm]

/-- A node that was added came from overrides that a template accepts. -/
theorem accepted_of_answer (added : answer host a (.addNode k stage overrides) = .ok (.node id tally)) :
    ∃ core node, a.templates[k.index]? = some core ∧
      Node.ofOverridesBy host.limit core stage overrides = .ok (node, tally) := by
  have step := step_perform host a (.addNode k stage overrides)
  rw [added] at step
  generalize next host a (.addNode k stage overrides) = b at step
  cases step with
  | created found accepted asked =>
    obtain ⟨rfl, rfl, rfl⟩ := Call.addNode.inj (asked.resolve_right fun other => by cases other.1)
    exact ⟨_, _, found, accepted⟩

/-- Releasing a node with one holder makes its slot the next to be used, in the generation that follows. -/
theorem next_release (host : Host) (live : a.occupant? id = some o) (own : o.node.isCore = false)
    (last : o.holders = 1) : answer host a (.release id) = .ok (.freed true) ∧
      (next host a (.release id)).templates = a.templates ∧
      (next host a (.release id)).nextId = ⟨id.index, id.generation + 1⟩ := by
  have ran : (perform host (.release id)).run a = .ok (.freed true) (a.remove id o.key?) :=
    run_bind_ok (run_release_last live own (Nat.le_of_eq last))
  have free : (a.remove id o.key?).nextIndex = id.index := by
    rw [nextIndex, (a.slots_remove id o.key?).1]
    rfl
  rw [answer, next, ran]
  refine ⟨rfl, (a.templates_remove id o.key?).1, ?_⟩
  show nextId (a.remove id o.key?) = _
  rw [nextId, free, generation_remove live, if_pos rfl, (occupant?_eq_some.1 live).1]

/-- A node that is added can be taken out again, and its slot is then the next to be used. -/
theorem freed_addNode (found : (after host calls).templates[k.index]? = some core)
    (accepted : Node.ofOverridesBy host.limit core stage overrides = .ok (node, tally)) :
    answer host (after host (calls ++ [.addNode k stage overrides])) (.release (after host calls).nextId) =
        .ok (.freed true) ∧
      (after host (calls ++ [.addNode k stage overrides, .release (after host calls).nextId])).templates =
        (after host calls).templates ∧
      (after host (calls ++ [.addNode k stage overrides, .release (after host calls).nextId])).nextId =
        ⟨(after host calls).nextIndex, (after host calls).nextId.generation + 1⟩ := by
  have sound : Sound host (after host calls) := sound_after calls
  obtain ⟨-, templates, live⟩ := sound.next_addNode found accepted
  have own : node.isCore = false := by
    obtain ⟨-, -, patch, rfl⟩ := sound.accepted found accepted
    rfl
  obtain ⟨freed, templates', again⟩ := next_release host live own rfl
  rw [after_concat, after_append]
  exact ⟨freed, templates'.trans templates, again⟩

/-- Adds a node and takes it out again, a number of times. -/
def churn (k : TemplateId) (stage : Nat) (overrides : Overrides) (id : NodeId) : Nat → List Call
  | 0 => []
  | n + 1 => [.addNode k stage overrides, .release id] ++ churn k stage overrides ⟨id.index, id.generation + 1⟩ n

/-- Every round frees the slot that was the next to be used, and leaves it so. -/
theorem freesSince_churn (accepted : Node.ofOverridesBy host.limit core stage overrides = .ok (node, tally)) :
    ∀ (n : Nat) (calls : List Call), (after host calls).templates[k.index]? = some core →
      freesSince host calls (churn k stage overrides (after host calls).nextId n) (after host calls).nextId.index = n ∧
        (after host (calls ++ churn k stage overrides (after host calls).nextId n)).templates =
          (after host calls).templates ∧
        (after host (calls ++ churn k stage overrides (after host calls).nextId n)).nextId.index =
          (after host calls).nextId.index
  | 0, calls, _ => by
    rw [churn, List.append_nil]
    exact ⟨rfl, rfl, rfl⟩
  | n + 1, calls, found => by
    obtain ⟨freed, templates, again⟩ := freed_addNode found accepted
    have once : freesSince host calls ([.addNode k stage overrides] ++ [.release (after host calls).nextId])
        (after host calls).nextId.index = 1 := by
      rw [freesSince_append, freesSince_addNode, freesSince_release freed]
    -- the other rounds begin where this one ends, in the slot that it has freed
    obtain ⟨count, templates', index⟩ := freesSince_churn accepted n _ (templates ▸ found)
    rw [again] at count templates' index
    rw [churn, ← List.append_assoc, freesSince_append]
    exact ⟨(congrArg₂ (· + ·) once count).trans (Nat.add_comm ..), templates'.trans templates, index⟩

/-- After a node was added it can be taken out, and its slot freed any number of times and then used. -/
theorem exists_freesSince (found : (after host calls).templates[k.index]? = some core)
    (accepted : Node.ofOverridesBy host.limit core stage overrides = .ok (node, tally)) (n : Nat) :
    ∃ post, FreedIn host (calls ++ [.addNode k stage overrides]) post (after host calls).nextId ∧
      freesSince host (calls ++ [.addNode k stage overrides]) post (after host calls).nextId.index = n + 1 ∧
        ∃ o, (after host (calls ++ [.addNode k stage overrides] ++ post)).at? (after host calls).nextId.index =
          some o := by
  obtain ⟨freed, templates, again⟩ := freed_addNode found accepted
  obtain ⟨count, templates', index⟩ := freesSince_churn accepted n _ (templates ▸ found)
  rw [again] at count templates' index
  refine ⟨[.release (after host calls).nextId] ++ (churn k stage overrides ⟨(after host calls).nextId.index,
    (after host calls).nextId.generation + 1⟩ n ++ [.addNode k stage overrides]), ⟨[], _, rfl, ?_⟩, ?_, ?_⟩
  · rwa [List.append_nil]
  · rw [freesSince_append, freesSince_append, freesSince_addNode, freesSince_release freed, List.append_assoc calls]
    exact (congrArg (1 + ·) count).trans (Nat.add_comm ..)
  · rw [← List.append_assoc, ← List.append_assoc, List.append_assoc calls, after_concat]
    have live := ((sound_after _).next_addNode (templates'.trans templates ▸ found) accepted).2.2
    have stands := (occupant?_eq_some.1 live).2
    rw [index] at stands
    exact ⟨_, stands⟩

end Churn

/-! ## The whole reach -/

/-- Which handles reach which nodes after a history. -/
structure Reaches (host : Host) (calls : List Call) : Prop where
  resolves_iff : ∀ id, (∃ r, (after host calls).resolve id none = .ok r) ↔
    (∃ slot, (after host calls).slots[id.index]? = some slot ∧ slot.occupant?.isSome) ∧
      frees host calls id.index % UInt32.size = id.generation.toNat
  found : ∀ id r, (after host calls).resolve id none = .ok r →
    ∃ slot o, (after host calls).slots[id.index]? = some slot ∧ slot.occupant? = some o ∧ r.1 = o.node ∧
      (after host calls).template o.node.template = .ok r.2
  unknown : ∀ id, (¬ ∃ r, (after host calls).resolve id none = .ok r) → (after host calls).Unknown id
  /-- A handle whose node was taken out is unknown until the generations have come round. -/
  stale : ∀ pre post id, calls = pre ++ post → (after host pre).Live id → FreedIn host pre post id →
    freesSince host pre post id.index < UInt32.size → (after host calls).Unknown id
  /-- When they have, the handle finds what stands in the slot then. -/
  around : ∀ pre post id slot o, calls = pre ++ post → (after host pre).Live id →
    freesSince host pre post id.index = UInt32.size → (after host calls).slots[id.index]? = some slot →
      slot.occupant? = some o → ∃ t, (after host calls).resolve id none = .ok (o.node, t)
  /-- They can, after any node was added. -/
  comesRound : ∀ k stage overrides id tally,
    answer host (after host calls) (.addNode k stage overrides) = .ok (.node id tally) →
      ∃ post, FreedIn host (calls ++ [.addNode k stage overrides]) post id ∧
        freesSince host (calls ++ [.addNode k stage overrides]) post id.index = UInt32.size ∧
          ∃ r, (after host (calls ++ [.addNode k stage overrides] ++ post)).resolve id none = .ok r

theorem resolves_iff (calls : List Call) (id : NodeId) : (∃ r, (after host calls).resolve id none = .ok r) ↔
    ∃ o, (after host calls).occupant? id = some o := by
  constructor
  · rintro ⟨r, found⟩
    obtain ⟨o, live, -⟩ := resolve_eq_ok.1 found
    exact ⟨o, live⟩
  · rintro ⟨o, live⟩
    obtain ⟨t, -, -, found⟩ := (sound_after calls).resolve_eq live
    exact ⟨_, found⟩

/-- **A handle reaches as far as its generation says**, along every history and whatever the host. -/
theorem reaches_after (host : Host) (calls : List Call) : Reaches host calls where
  resolves_iff id := by
    simp only [resolves_iff, occupant?_after, at?_eq_some, Option.isSome_iff_exists]
    constructor
    · rintro ⟨o, count, slot, here, stands⟩
      exact ⟨⟨slot, here, o, stands⟩, count⟩
    · rintro ⟨⟨slot, here, o, stands⟩, count⟩
      exact ⟨o, count, slot, here, stands⟩
  found id r found := by
    obtain ⟨o, live, node, found⟩ := resolve_eq_ok.1 found
    obtain ⟨slot, here, stands⟩ := at?_eq_some.1 (occupant?_eq_some.1 live).2
    exact ⟨slot, o, here, stands, node.symm, template_eq_ok.2 (node ▸ found)⟩
  unknown id unresolved := by
    rw [resolves_iff, not_exists, ← Option.eq_none_iff_forall_ne_some] at unresolved
    exact unknown_of_dead unresolved
  stale pre post id split live freed few := by
    rw [split]
    exact unknown_of_dead (occupant?_of_freesSince live freed.freesSince_pos few)
  around pre post id slot o split live round here stands := by
    subst split
    have found := occupant?_of_size live round (at?_eq_some.2 ⟨slot, here, stands⟩)
    obtain ⟨t, -, -, found⟩ := (sound_after _).resolve_eq found
    exact ⟨t, found⟩
  comesRound k stage overrides id tally added := by
    obtain ⟨core, node, found, accepted⟩ := accepted_of_answer added
    obtain ⟨given, -, live⟩ := (sound_after calls).next_addNode found accepted
    obtain ⟨rfl, -⟩ := Answer.node.inj (Except.ok.inj (given.symm.trans added))
    rw [← after_concat] at live
    obtain ⟨post, freed, round, o, stands⟩ := exists_freesSince found accepted (UInt32.size - 1)
    have found := occupant?_of_size (.of live trivial) round stands
    exact ⟨post, freed, round, (resolves_iff ..).2 ⟨o, found⟩⟩

end Arena
end Multistage
