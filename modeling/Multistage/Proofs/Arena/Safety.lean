import Multistage.Proofs.Arena.History
import Multistage.Proofs.Node.Safe
/-!
# Nothing that a live node is asked for trips over its own data

Every live node was made by a template of the arena and has only kept rows since (`allMade_after`): a step puts in nodes
that a template makes, and changes of those that are there nothing but their holders and the rows that they keep.  With
`Node.safe_of_madeBy` this says that whatever a live node is asked for, with any template of the arena, its stored data
is good enough for it (`safe_after`).
-/
namespace Multistage
namespace Arena

variable {host : Host} {a b : Arena} {c : Call} {r : Except Error Answer} {id : NodeId} {o : Occupant}

/-- A node is made by a template of the arena. -/
def Made (limit : Nat) (a : Arena) (n : Node) : Prop :=
  ∃ core, a.templates[n.template.index]? = some core ∧ n.MadeBy limit core

def AllMade (limit : Nat) (a : Arena) : Prop :=
  ∀ {id : NodeId} {o : Occupant}, a.occupant? id = some o → a.Made limit o.node

/-! ## What becomes of a node -/

/-- A node that is there after a call was put in by it and keeps no rows, or it is the one from before, but for the rows
that it was asked for. -/
inductive Continues (limit : Nat) (a b : Arena) (id : NodeId) (c : Call) (n : Node) : Prop
  | new (dead : a.occupant? id = none) (empty : n.denseRows = ∅) (made : b.Made limit n)
  | same {o : Occupant} (live : a.occupant? id = some o) (same : n = o.node)
      (quiet : ∀ core? row, c ≠ .denseRow id core? row)
  | asked {o : Occupant} {core? : Option TemplateId} {row : Nat} {rows : Std.TreeMap Nat (Array Binary64)}
      (live : a.occupant? id = some o) (asked : c = .denseRow id core? row) (kept : n = { o.node with denseRows := rows })

/-- Where holders change the nodes are the same. -/
theorem continues_setHolders {limit : Nat} {i : NodeId} {holders : Nat} {p : Occupant} (live : a.occupant? i = some o)
    (found : (a.setHolders i holders).occupant? id = some p) (quiet : ∀ core? row, c ≠ .denseRow id core? row) :
    Continues limit a b id c p.node := by
  rw [setHolders, occupant?_updateOccupant live] at found
  split at found
  · rename_i here
    obtain rfl := Option.some.inj found
    subst here
    exact .same live rfl quiet
  · exact .same found rfl quiet

/-- **A step puts in only nodes that a template makes**, and keeps those that are there as they are. -/
theorem Sound.continues_step (h : Sound host a) (step : Step host a c r b) {p : Occupant}
    (found : b.occupant? id = some p) : Continues host.limit a b id c p.node := by
  cases step with
  | refused reason => exact .same found rfl fun core? row asked => by subst asked; cases reason <;> simp_all
  | @template snapshot assignment options t built =>
    have added := h.freeListed.withTemplate t
    by_cases new : id ∈ a.coreIds t
    · obtain ⟨stage, at?⟩ := List.mem_iff_getElem?.1 new
      obtain rfl := Option.some.inj ((added.found at?).symm.trans found)
      have lt : stage < t.numStages := added.length ▸ (List.getElem?_eq_some_iff.1 at?).1
      refine .new (added.fresh id new) rfl ⟨t, ?_, .core lt ∅⟩
      show (a.withTemplate t).templates[t.id.index]? = some t
      rw [added.templates, (Template.build_eq_ok built).1, Array.getElem?_push_size]
    · rw [added.other id new] at found
      exact .same found rfl fun _ _ => Call.noConfusion
  | @created c k stage overrides core node tally there accepted asked =>
    obtain ⟨fresh, occupants⟩ := occupant?_withNode h.freeListed (node.key host.hash) node
    rw [occupants] at found
    split at found
    · rename_i new
      obtain rfl := Option.some.inj found
      obtain ⟨rfl, -, patch, rfl⟩ := h.accepted there accepted
      exact .new (new ▸ fresh) rfl ⟨core, by rw [templates_withNode]; exact there, .scenario accepted ∅⟩
    · refine .same found rfl ?_
      rintro core? row rfl
      rcases asked with asked | ⟨asked, -⟩ <;> cases asked
  | shared _ _ _ live => exact continues_setHolders live found fun _ _ => Call.noConfusion
  | retained live => exact continues_setHolders live found fun _ _ => Call.noConfusion
  | counted => exact .same found rfl fun _ _ => Call.noConfusion
  | dropped live => exact continues_setHolders live found fun _ _ => Call.noConfusion
  | freed live =>
    rw [occupant?_remove live] at found
    split at found
    · cases found
    · exact .same found rfl fun _ _ => Call.noConfusion
  | @unread i core? row e =>
    by_cases here : i = id
    · subst here
      exact .asked found rfl rfl
    · exact .same found rfl fun core? row asked => here (Call.denseRow.inj asked).1
  | @read i core? row o rows r live =>
    rw [setRows, occupant?_updateOccupant live] at found
    split at found
    · rename_i here
      obtain rfl := Option.some.inj found
      subst here
      exact .asked live rfl rfl
    · rename_i other
      exact .same found rfl fun core? row asked => other (Call.denseRow.inj asked).1.symm

/-! ## Nodes stay as they were made -/

theorem Sound.made_step (h : Sound host a) (step : Step host a c r b) {n : Node} (made : a.Made host.limit n) :
    b.Made host.limit n := by
  obtain ⟨core, found, made⟩ := made
  exact ⟨core, h.template_step step found, made⟩

theorem Sound.allMade_step (h : Sound host a) (made : a.AllMade host.limit) (step : Step host a c r b) :
    b.AllMade host.limit := by
  intro id p found
  cases h.continues_step step found with
  | new _ _ new => exact new
  | same live same =>
    rw [same]
    exact h.made_step step (made live)
  | @asked o core? row rows live _ kept =>
    obtain ⟨core, there, made⟩ := h.made_step step (made live)
    rw [kept]
    exact ⟨core, there, made.keep rows⟩

theorem allMade_after (calls : List Call) : (after host calls).AllMade host.limit := by
  induction calls using List.reverseRecOn with
  | nil => exact fun live => by cases live
  | append_singleton calls c ih => exact (sound_after calls).allMade_step ih (step_after calls c)

/-! ## Using the nodes of an arena -/

/-- The data that nodes store is in order wherever it is used. -/
structure Safe (a : Arena) : Prop where
  /-- Whatever list of overrides a template accepts. -/
  accepted : ∀ limit k core stage overrides node tally, a.template k = .ok core →
    Node.ofOverridesBy limit core stage overrides = .ok (node, tally) →
      node.stage = stage ∧ node.Answers core ∧ ∃ patch, node.WellStored core patch
  live : ∀ id n, a.node id = .ok n → ∃ core, a.template n.template = .ok core ∧ n.Answers core ∧
    (n.isCore = false → ∃ patch, n.WellStored core patch)
  foreign : ∀ id n k other, a.node id = .ok n → a.template k = .ok other → k ≠ n.template → n.Refuses other

/-- **Whatever is asked of a node, its own data is in order**, along every history and whatever the host. -/
theorem safe_after (host : Host) (calls : List Call) : Safe (after host calls) where
  accepted limit k core stage overrides node tally found accepted := by
    have sound : Sound host (after host calls) := sound_after calls
    have found := template_eq_ok.1 found
    obtain ⟨-, answers, stored⟩ := Node.safe_of_madeBy (sound.template found).2 (.scenario accepted node.denseRows)
    obtain ⟨-, -, patch, rfl⟩ := sound.accepted found accepted
    exact ⟨rfl, answers, stored rfl⟩
  live id n found := by
    have sound : Sound host (after host calls) := sound_after calls
    obtain ⟨o, live, rfl⟩ := node_eq_ok.1 found
    obtain ⟨core, found, made⟩ := allMade_after calls live
    exact ⟨core, template_eq_ok.2 found, (Node.safe_of_madeBy (sound.template found).2 made).2⟩
  foreign id n k other _ found ne := by
    have named := ((sound_after calls).template (template_eq_ok.1 found)).1
    exact Node.refuses_of_ne fun same => ne (named.symm.trans same)

end Arena
end Multistage
