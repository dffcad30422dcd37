import Multistage.Proofs.Arena.Ledger
/-!
# Interning is exact

Interning finds every live scenario node that stores the same, because each is listed under its hash, and finds no
other, because contents are compared; so it does not matter how many contents share a hash.  Among several it finds the
one that has been live longest, because every list is in the order of age (`oldest_first`).
-/
namespace Multistage
namespace Arena

variable {host : Host} {a b : Arena} {id : NodeId} {o : Occupant} {c : Call} {r : Except Error Answer}

/-! ## Age -/

/-- For how many of the last calls a handle has been live, if it has been live for some already. -/
def ageFrom (host : Host) (id : NodeId) : Arena → Nat → List Call → Nat
  | _, age, [] => age
  | a, age, c :: calls =>
    ageFrom host id (next host a c) (if ((next host a c).occupant? id).isSome then age + 1 else 0) calls

/-- After how many of the last calls of a history a handle was live, without a break. -/
def age (host : Host) (calls : List Call) (id : NodeId) : Nat := ageFrom host id empty 0 calls

theorem ageFrom_concat (id : NodeId) (c : Call) : ∀ (calls : List Call) (a : Arena) (age : Nat),
    ageFrom host id a age (calls ++ [c]) =
      if ((next host (calls.foldl (next host) a) c).occupant? id).isSome then ageFrom host id a age calls + 1 else 0
  | [], _, _ => rfl
  | d :: calls, a, age => by
    rw [List.cons_append, ageFrom, ageFrom_concat id c calls]
    rfl

theorem age_of_live {calls : List Call} (live : (after host (calls ++ [c])).Live id) :
    age host (calls ++ [c]) id = age host calls id + 1 := by
  obtain ⟨o, found, -⟩ := live
  rw [after_concat] at found
  have some : ((next host (calls.foldl (next host) empty) c).occupant? id).isSome := Option.isSome_of_eq_some found
  rw [age, ageFrom_concat, if_pos some, age]

theorem age_of_dead : ∀ {calls : List Call}, ¬ (after host calls).Live id → age host calls id = 0 := by
  intro calls dead
  cases calls using List.reverseRecOn with
  | nil => rfl
  | append_singleton calls c =>
    have none : ¬ ((next host (calls.foldl (next host) empty) c).occupant? id).isSome := fun some => by
      obtain ⟨o, found⟩ := Option.isSome_iff_exists.1 some
      rw [after_concat] at dead
      exact dead (.of found trivial)
    rw [age, ageFrom_concat, if_neg none]

theorem age_pos : ∀ {calls : List Call}, (after host calls).Live id → 0 < age host calls id := by
  intro calls live
  cases calls using List.reverseRecOn with
  | nil =>
    obtain ⟨o, found, -⟩ := live
    cases found
  | append_singleton calls c =>
    rw [age_of_live live]
    exact Nat.succ_pos _

/-! ## Lists in the order of age -/

/-- A step takes handles off a list, or puts a new one at its end. -/
theorem Sound.listed_step (h : Sound host a) (step : Step host a c r b) (key : UInt64) :
    (b.listed key).Sublist (a.listed key) ∨ ∃ id, ¬ a.Live id ∧ b.listed key = a.listed key ++ [id] := by
  cases step with
  | refused => exact .inl (List.Sublist.refl _)
  | @template snapshot assignment options t =>
    rw [listed, (h.freeListed.withTemplate t).catalog]
    exact .inl (List.Sublist.refl _)
  | @created c k stage overrides core node =>
    rw [listed_withNode]
    split
    · rename_i same
      rw [same]
      exact .inr ⟨_, not_finds (occupant?_withNode h.freeListed ..).1, rfl⟩
    · exact .inl (List.Sublist.refl _)
  | shared => exact .inl (List.Sublist.refl _)
  | retained => exact .inl (List.Sublist.refl _)
  | counted => exact .inl (List.Sublist.refl _)
  | dropped => exact .inl (List.Sublist.refl _)
  | @freed i o live own =>
    rw [(h.proper live).scenario own, listed_remove]
    split
    · rename_i same
      rw [same]
      exact .inl List.filter_sublist
    · exact .inl (List.Sublist.refl _)
  | unread => exact .inl (List.Sublist.refl _)
  | read => exact .inl (List.Sublist.refl _)

theorem Sound.live_of_listed (h : Sound host a) {key : UInt64} (listed : id ∈ a.listed key) : a.Live id := by
  obtain ⟨o, live, -⟩ := h.mem_listed.1 listed
  exact .of live trivial

/-- **Every list of the catalog has the oldest in front.** -/
theorem oldest_first (calls : List Call) (key : UInt64) :
    ((after host calls).listed key).Pairwise fun i j => age host calls j < age host calls i := by
  induction calls using List.reverseRecOn with
  | nil => exact List.Pairwise.nil
  | append_singleton calls c ih =>
    have live : ∀ {i : NodeId}, i ∈ (after host (calls ++ [c])).listed key →
        age host (calls ++ [c]) i = age host calls i + 1 := fun listed =>
      age_of_live ((sound_after _).live_of_listed listed)
    rcases (sound_after calls).listed_step (step_after calls c) key with fewer | ⟨id, new, more⟩
    · refine (ih.sublist fewer).imp_of_mem fun {i j} hi hj older => ?_
      rw [live hi, live hj]
      exact Nat.succ_lt_succ older
    · rw [more] at live ⊢
      refine List.pairwise_append.2 ⟨ih.imp_of_mem fun {i j} hi hj older => ?_, List.pairwise_singleton .., ?_⟩
      · rw [live (List.mem_append_left _ hi), live (List.mem_append_left _ hj)]
        exact Nat.succ_lt_succ older
      · intro i hi j hj
        obtain rfl := List.mem_singleton.1 hj
        have older := age_pos ((sound_after calls).live_of_listed hi)
        rw [live (List.mem_append_left _ hi), live (List.mem_append_right _ hj), age_of_dead new]
        exact Nat.succ_lt_succ older

/-- The first of a list in order that has a property comes before all others that have it. -/
theorem find?_pairwise {α : Type} {R : α → α → Prop} {p : α → Bool} {l : List α} {x y : α}
    (ordered : l.Pairwise R) (found : l.find? p = some x) (member : y ∈ l) (also : p y = true) (other : y ≠ x) :
    R x y := by
  obtain ⟨-, pre, post, split, unlike⟩ := List.find?_eq_some_iff_append.1 found
  rw [split] at ordered member
  rcases List.mem_append.1 member with early | late
  · have := unlike y early
    rw [also] at this
    cases this
  · rcases List.mem_cons.1 late with same | late
    · exact absurd same other
    · exact (List.pairwise_cons.1 (List.pairwise_append.1 ordered).2.1).1 y late

end Arena

/-! ## Runs that only intern -/

/-- No two scenario nodes are of the same stage of the same template and store the same. -/
def Table.Distinct (table : Table) : Prop := ∀ (i j : NodeId) (r s : Record), table i = some r → table j = some s →
  r.content ≠ .core → s.Stores r.template r.stage r.content → i = j

/-- A table stays without duplicates if its scenario nodes were there before. -/
theorem Table.Distinct.of_old {t u : Table} (h : t.Distinct) (old : ∀ {i : NodeId} {r : Record}, u i = some r →
    r.content ≠ .core → ∃ s, t i = some s ∧ s.Stores r.template r.stage r.content) : u.Distinct := by
  intro i j r s hi hj own same
  obtain ⟨r', hi, template, stage, content⟩ := old hi own
  obtain ⟨s', hj, same'⟩ := old hj (same.2.2 ▸ own)
  refine h i j r' s' hi hj (content ▸ own) ?_
  rw [template, stage, content, ← same.1, ← same.2.1, ← same.2.2]
  exact same'

theorem Table.Distinct.setHolders {t : Table} (h : t.Distinct) {id : NodeId} {r : Record} (live : t id = some r)
    (holders : Nat) : (t.set id (some { r with holders })).Distinct := h.of_old fun {i s} found _ => by
  rw [Table.set] at found
  split at found
  · rename_i here
    obtain rfl := Option.some.inj found
    exact ⟨r, here ▸ live, rfl, rfl, rfl⟩
  · exact ⟨s, found, rfl, rfl, rfl⟩

theorem Table.Distinct.enter {t : Table} (h : t.Distinct) {id : NodeId} {r : Record}
    (new : ∀ i s, t i = some s → ¬ s.Stores r.template r.stage r.content) : (t.set id (some r)).Distinct := by
  intro i j s u hi hj own same
  rw [Table.set] at hi hj
  split at hi <;> split at hj
  · simp_all
  · obtain rfl := Option.some.inj hi
    exact absurd same (new j u hj)
  · obtain rfl := Option.some.inj hj
    exact absurd ⟨same.1.symm, same.2.1.symm, same.2.2.symm⟩ (new i s hi)
  · exact h i j s u hi hj own same

theorem Ledger.Step.distinct {limit : Nat} {l m : Ledger} {c : Call} {r : Except Error Answer} (step : l.Step limit c r m)
    (h : l.table.Distinct) (interned : ∀ k stage overrides, c ≠ .addNode k stage overrides) : m.table.Distinct := by
  cases step with
  | refused => exact h
  | @template snapshot assignment options t ids table built length nodup fresh cores others =>
    refine h.of_old fun {i r} found own => ?_
    by_cases hi : i ∈ ids
    · obtain ⟨stage, hs⟩ := List.mem_iff_getElem?.1 hi
      obtain rfl := Option.some.inj ((cores hs).symm.trans found)
      exact absurd rfl own
    · exact ⟨r, (others i hi).symm.trans found, rfl, rfl, rfl⟩
  | created _ _ asked =>
    rcases asked with added | ⟨-, new⟩
    · exact absurd added (interned _ _ _)
    · exact h.enter new
  | shared _ _ live => exact h.setHolders live _
  | retained live => exact h.setHolders live _
  | counted => exact h
  | dropped live => exact h.setHolders live _
  | @freed id =>
    refine h.of_old fun {i r} found _ => ?_
    have found : l.table.set id none i = some r := found
    rw [Table.set] at found
    split at found
    · cases found
    · exact ⟨r, found, rfl, rfl, rfl⟩
  | read => exact h

namespace Arena

variable {host : Host}

theorem distinct_after (calls : List Call)
    (interned : ∀ c ∈ calls, ∀ k stage overrides, c ≠ .addNode k stage overrides) :
    (after host calls).table.Distinct := by
  induction calls using List.reverseRecOn with
  | nil =>
    intro i j r s found
    cases found
  | append_singleton calls c ih =>
    obtain ⟨earlier, last⟩ := List.forall_mem_append.1 interned
    -- for this purpose a handle is given out while it is live
    have step : ((after host calls).ledger (after host calls).Live).Step host.limit c _
        ((after host (calls ++ [c])).ledger _) :=
      (sound_after calls).ledger_step (fun _ live => live) (step_after calls c) fun _ old _ => old
    exact step.distinct (ih earlier) (last c (List.mem_singleton_self c))

/-! ## Interning -/

/-- A handle is of a live node of a stage that stores a content. -/
def Stores (a : Arena) (k : TemplateId) (stage : Nat) (content : Node.Content) (id : NodeId) : Prop :=
  ∃ r, a.table id = some r ∧ r.Stores k stage content

/-- What interning does after a history: it shares the oldest node that stores the same, or else adds one. -/
structure Interned (host : Host) (calls : List Call) (k : TemplateId) (stage : Nat) (content : Node.Content)
    (id : NodeId) (b : Arena) : Prop where
  live_iff : (after host calls).Live id ↔ ∃ i, (after host calls).Stores k stage content i
  shared : ∀ r, (after host calls).table id = some r → r.Stores k stage content ∧
    (∀ j, (after host calls).Stores k stage content j → j ≠ id → age host calls j < age host calls id) ∧
    b = (after host calls).setHolders id (r.holders + 1)
  created : (after host calls).table id = none →
    b.table = (after host calls).table.set id (some ⟨k, stage, content, 1⟩) ∧
    b.templates = (after host calls).templates ∧ b.coreNodes = (after host calls).coreNodes
  stored : b.Stores k stage content id

theorem stores_iff {a : Arena} {core : Template} {stage : Nat} {patch : Patch} {id : NodeId} :
    a.Stores core.id stage (.scenario patch) id ↔
      a.Finds (fun o => alike o.node (Node.patched core stage patch) = true) id := by
  constructor
  · rintro ⟨r, found, stores⟩
    obtain ⟨o, live, rfl⟩ := table_eq_some.1 found
    exact ⟨o, live, alike_eq_true.2 ⟨rfl, stores⟩⟩
  · rintro ⟨o, live, same⟩
    exact ⟨o.record, table_of_live live, (alike_eq_true.1 same).2⟩

variable {calls : List Call} {core : Template} {stage : Nat} {patch : Patch}

theorem interned_shared {id : NodeId} {o : Occupant}
    (first : (after host calls).findAlike ((Node.patched core stage patch).key host.hash) (Node.patched core stage patch) =
      some id)
    (live : (after host calls).occupant? id = some o) (same : alike o.node (Node.patched core stage patch) = true) :
    Interned host calls core.id stage (.scenario patch) id ((after host calls).setHolders id (o.holders + 1)) := by
  have stores : o.record.Stores core.id stage (.scenario patch) := (alike_eq_true.1 same).2
  exact {
    live_iff := ⟨fun _ => ⟨id, o.record, table_of_live live, stores⟩, fun _ => .of live trivial⟩
    shared := fun r found => by
      obtain rfl := Option.some.inj ((table_of_live live).symm.trans found)
      refine ⟨stores, fun j also other => ?_, rfl⟩
      obtain ⟨p, found, alike⟩ := stores_iff.1 also
      have listed := (sound_after calls).listed_of_alike found alike
      exact find?_pairwise (R := fun i j => age host calls j < age host calls i) (oldest_first calls _) first listed
        (by rw [found]; exact alike) other
    created := fun dead => by
      rw [table_of_live live] at dead
      cases dead
    stored := ⟨_, (table_setHolders live ..).trans (if_pos rfl), stores⟩ }

theorem interned_created
    (nothing : (after host calls).findAlike ((Node.patched core stage patch).key host.hash) (Node.patched core stage patch) =
      none) :
    Interned host calls core.id stage (.scenario patch)
      ((after host calls).newId ((Node.patched core stage patch).key host.hash) (Node.patched core stage patch))
      ((after host calls).withNode ((Node.patched core stage patch).key host.hash) (Node.patched core stage patch)) := by
  have sound : Sound host (after host calls) := sound_after calls
  obtain ⟨fresh, -⟩ := occupant?_withNode sound.freeListed ((Node.patched core stage patch).key host.hash)
    (Node.patched core stage patch)
  exact {
    live_iff := ⟨fun live => absurd live (not_finds fresh),
      fun ⟨i, also⟩ => absurd (stores_iff.1 also) (sound.not_alike nothing i)⟩
    shared := fun r found => by
      obtain ⟨o, live, -⟩ := table_eq_some.1 found
      rw [fresh] at live
      cases live
    created := fun _ => ⟨funext (table_withNode sound.freeListed _ _), templates_withNode .., coreNodes_withNode ..⟩
    stored := ⟨_, (table_withNode sound.freeListed ..).trans (if_pos rfl), rfl, rfl, rfl⟩ }

theorem run_internNode_after {k : TemplateId} {overrides : Overrides} {node : Node} {tally : Tally}
    (found : (after host calls).template k = .ok core)
    (accepted : Node.ofOverridesBy host.limit core stage overrides = .ok (node, tally)) :
    ∃ id b, (internNodeBy host k stage overrides).run (after host calls) = .ok (id, tally) b ∧
      Interned host calls k stage node.content id b := by
  have found := template_eq_ok.1 found
  obtain ⟨rfl, -, patch, rfl⟩ := (sound_after calls).accepted found accepted
  cases first : (after host calls).findAlike ((Node.patched core stage patch).key host.hash)
      (Node.patched core stage patch) with
  | none => exact ⟨_, _, run_internNode_created found accepted first, interned_created first⟩
  | some id =>
    obtain ⟨-, o, live, same⟩ := findAlike_eq_some first
    exact ⟨_, _, run_internNode_shared found accepted first live same, interned_shared first live same⟩

/-! ### One after the other -/

section Together

variable {a : Arena} {k : TemplateId} {o₁ o₂ : Overrides}

/-- What interning does and which handle it answers depends on the node alone. -/
theorem exists_interned (host : Host) (a : Arena) (node : Node) : ∃ id b, ∀ {k : TemplateId} {o : Overrides}
    {tally : Tally}, a.templates[k.index]? = some core → Node.ofOverridesBy host.limit core stage o = .ok (node, tally) →
      (internNodeBy host k stage o).run a = .ok (id, tally) b := by
  cases first : a.findAlike (node.key host.hash) node with
  | none => exact ⟨_, _, fun found accepted => run_internNode_created found accepted first⟩
  | some id =>
    obtain ⟨-, o, live, same⟩ := findAlike_eq_some first
    exact ⟨_, _, fun found accepted => run_internNode_shared found accepted first live same⟩

/-- The number of holders plays no part in finding a node. -/
theorem findAlike_setHolders {id : NodeId} {o : Occupant} (live : a.occupant? id = some o) (holders : Nat)
    (key : UInt64) (node : Node) : (a.setHolders id holders).findAlike key node = a.findAlike key node := by
  refine congrArg (fun p => List.find? p (a.listed key)) (funext fun i => ?_)
  rw [setHolders, occupant?_updateOccupant live]
  by_cases hi : i = id
  · rw [if_pos hi, hi, live]
    rfl
  · rw [if_neg hi]

/-- A node that was interned is found from then on. -/
theorem Sound.findAlike_interned (sound : Sound host a) (found : a.templates[k.index]? = some core) {node : Node}
    {tally : Tally} (accepted : Node.ofOverridesBy host.limit core stage o₁ = .ok (node, tally)) :
    ∃ id b, (internNodeBy host k stage o₁).run a = .ok (id, tally) b ∧ Sound host b ∧ b.templates = a.templates ∧
      b.findAlike (node.key host.hash) node = some id := by
  cases first : a.findAlike (node.key host.hash) node with
  | some id =>
    obtain ⟨-, o, live, same⟩ := findAlike_eq_some first
    exact ⟨id, _, run_internNode_shared found accepted first live same, sound.setHolders live (isCore_of_alike same)
      (Nat.succ_pos _), rfl, (findAlike_setHolders live ..).trans first⟩
  | none =>
    obtain ⟨sound', self⟩ : Sound host (a.withNode (node.key host.hash) node) ∧ alike node node = true := by
      obtain ⟨rfl, lt, patch, rfl⟩ := sound.accepted found accepted
      exact ⟨sound.withNode found lt, alike_eq_true.2 ⟨rfl, rfl, rfl, rfl⟩⟩
    have finds : ∀ i, (a.withNode (node.key host.hash) node).Finds (fun o => alike o.node node = true) i ↔
        i = a.newId (node.key host.hash) node ∧ alike node node = true ∨ a.Finds (fun o => alike o.node node = true) i :=
      fun i => finds_withNode sound.freeListed i
    refine ⟨_, _, run_internNode_created found accepted first, sound', templates_withNode .., ?_⟩
    cases again : (a.withNode (node.key host.hash) node).findAlike (node.key host.hash) node with
    | none => exact absurd ((finds _).2 (.inl ⟨rfl, self⟩)) (sound'.not_alike again _)
    | some id =>
      obtain ⟨-, o, live, same⟩ := findAlike_eq_some again
      rcases (finds id).1 (.of live same) with ⟨new, -⟩ | old
      · rw [new]
      · exact absurd old (sound.not_alike first id)

/-- Two nodes that are interned one after the other get one handle exactly if they store the same. -/
theorem Sound.interned_eq_iff (sound : Sound host a) (found : a.templates[k.index]? = some core) {n₁ n₂ : Node}
    {t₁ t₂ : Tally} (accepted₁ : Node.ofOverridesBy host.limit core stage o₁ = .ok (n₁, t₁))
    (accepted₂ : Node.ofOverridesBy host.limit core stage o₂ = .ok (n₂, t₂)) :
    ∃ id₁ id₂ b c, (internNodeBy host k stage o₁).run a = .ok (id₁, t₁) b ∧
      (internNodeBy host k stage o₂).run b = .ok (id₂, t₂) c ∧ (id₁ = id₂ ↔ n₁ = n₂) := by
  obtain ⟨id, b, ran, sound', templates, again⟩ := sound.findAlike_interned found accepted₁
  obtain ⟨-, o, live, same⟩ := findAlike_eq_some again
  obtain ⟨-, -, p₁, rfl⟩ := sound.accepted found accepted₁
  obtain ⟨-, -, p₂, rfl⟩ := sound.accepted found accepted₂
  have found' : b.templates[k.index]? = some core := templates ▸ found
  cases first : b.findAlike ((Node.patched core stage p₂).key host.hash) (Node.patched core stage p₂) with
  | none =>
    refine ⟨id, _, b, _, ran, run_internNode_created found' accepted₂ first, fun meet => ?_, fun meet => ?_⟩
    · obtain ⟨fresh, -⟩ := occupant?_withNode sound'.freeListed ((Node.patched core stage p₂).key host.hash)
        (Node.patched core stage p₂)
      rw [← meet, live] at fresh
      cases fresh
    · rw [meet, first] at again
      cases again
  | some id' =>
    obtain ⟨-, o', live', same'⟩ := findAlike_eq_some first
    refine ⟨id, id', b, _, ran, run_internNode_shared found' accepted₂ first live' same', fun meet => ?_, fun meet => ?_⟩
    · obtain rfl : o = o' := Option.some.inj (live.symm.trans (meet ▸ live'))
      have content := (alike_eq_true.1 same).2.2.2.symm.trans (alike_eq_true.1 same').2.2.2
      exact congrArg (Node.fresh core stage) content
    · rw [meet, first] at again
      exact (Option.some.inj again).symm

end Together

/-- A release that frees a node is a step of the history, and leaves every other record. -/
theorem after_freed {i : NodeId} {b : Arena} (freed : (release i).run (after host calls) = .ok true b) :
    after host (calls ++ [.release i]) = b ∧ ∀ j, j ≠ i → b.table j = (after host calls).table j := by
  have ran : (perform host (.release i)).run (after host calls) = .ok (.freed true) b := run_bind_ok freed
  have step := step_perform host (after host calls) (.release i)
  rw [answer, next, ran] at step
  refine ⟨by rw [after_concat, next, ran], fun j other => ?_⟩
  cases step with
  | freed live => exact (table_remove live ..).trans (if_neg other)

/-- What interning does at every point of every history, and what follows for runs that only intern and for the nodes
that remain when one is freed. -/
structure InternsExactly (host : Host) (calls : List Call) : Prop where
  interned : ∀ {k : TemplateId} {stage : Nat} {overrides : Overrides} {core : Template} {node : Node} {tally : Tally},
    (after host calls).template k = .ok core → Node.ofOverridesBy host.limit core stage overrides = .ok (node, tally) →
      ∃ id b, (internNodeBy host k stage overrides).run (after host calls) = .ok (id, tally) b ∧
        Interned host calls k stage node.content id b
  distinct : (∀ c ∈ calls, ∀ k stage overrides, c ≠ .addNode k stage overrides) →
    ∀ {i j : NodeId} {k : TemplateId} {stage : Nat} {patch : Patch},
      (after host calls).Stores k stage (.scenario patch) i →
        (after host calls).Stores k stage (.scenario patch) j → i = j
  kept : ∀ {i j : NodeId} {b : Arena} {k : TemplateId} {stage : Nat} {content : Node.Content},
    (release i).run (after host calls) = .ok true b → j ≠ i → (after host calls).Stores k stage content j →
      b.Stores k stage content j ∧ ∀ {core : Template} {overrides : Overrides} {node : Node} {tally : Tally},
        b.template k = .ok core → Node.ofOverridesBy host.limit core stage overrides = .ok (node, tally) →
          node.content = content →
          ∃ id c, (internNodeBy host k stage overrides).run b = .ok (id, tally) c ∧ b.Stores k stage content id

/-- **Interning is exact**, after every history and whatever the host. -/
theorem internsExactly_after (host : Host) (calls : List Call) : InternsExactly host calls where
  interned := run_internNode_after
  distinct := fun interned i j k stage patch hi hj => by
    obtain ⟨r, hi, rfl, rfl, content⟩ := hi
    obtain ⟨s, hj, same⟩ := hj
    refine distinct_after calls interned i j r s hi hj ?_ (content ▸ same)
    rw [content]
    exact Node.Content.noConfusion
  kept := fun {i j b k stage content} freed other stored => by
    obtain ⟨after_eq, rest⟩ := after_freed freed
    obtain ⟨r, found, stores⟩ := stored
    have still : b.Stores k stage content j := ⟨r, (rest j other).trans found, stores⟩
    refine ⟨still, fun {core overrides node tally} template accepted same => ?_⟩
    rw [← after_eq] at template still ⊢
    subst same
    obtain ⟨id, c, ran, interned⟩ := run_internNode_after template accepted
    obtain ⟨o, live, -⟩ := interned.live_iff.2 ⟨j, still⟩
    exact ⟨id, c, ran, _, table_of_live live, (interned.shared _ (table_of_live live)).1⟩

/-- After the small history there is something to intern, and every content has the same hash. -/
theorem internsExactly_reusing : InternsExactly colliding reusingCalls ∧ ∃ core node tally,
    (after colliding reusingCalls).template ⟨0⟩ = .ok core ∧
      Node.ofOverrides core 1 interleavedOverrides = .ok (node, tally) := by
  refine ⟨internsExactly_after _ _, ?_⟩
  have accepted : (((after colliding reusingCalls).template ⟨0⟩).bind fun core =>
      Node.ofOverrides core 1 interleavedOverrides).isOk = true := by decide +kernel
  obtain ⟨⟨node, tally⟩, accepted⟩ := exists_of_isOk accepted
  obtain ⟨core, found, accepted⟩ := bind_eq_ok.1 accepted
  exact ⟨core, node, tally, found, accepted⟩

end Arena
end Multistage
