import Multistage.Proofs.Arena.Effect
/-!
# What holds of every arena

`Sound` ties the parts of an arena together: the free list to the empty slots, the catalog to the live scenario nodes
and their hashes, the table of core nodes to the live core nodes, and every node to a stage of a template.  The empty
arena is sound and every step keeps it so (`Sound.step`).
-/
namespace Multistage

/-- A node in its slot as it should be: anchored to a stage that exists, held, and listed under its hash unless it is a
core node, which has one holder. -/
structure Occupant.Proper (host : Host) (templates : Array Template) (o : Occupant) : Prop where
  anchored : ∃ t, templates[o.node.template.index]? = some t ∧ o.node.stage < t.numStages
  held : 1 ≤ o.holders
  core : o.node.isCore = true → o.holders = 1 ∧ o.key? = none
  scenario : o.node.isCore = false → o.key? = some (o.node.key host.hash)

theorem Occupant.Proper.push {host : Host} {templates : Array Template} {o : Occupant}
    (h : o.Proper host templates) (t : Template) : o.Proper host (templates.push t) where
  anchored := by
    obtain ⟨core, found, lt⟩ := h.anchored
    have inside := (Array.getElem?_eq_some_iff.1 found).1
    exact ⟨core, by rw [Array.getElem?_push, if_neg (by omega)]; exact found, lt⟩
  held := h.held
  core := h.core
  scenario := h.scenario

namespace Arena

/-- The parts of an arena agree. -/
structure Sound (host : Host) (a : Arena) : Prop where
  freeListed : a.FreeListed
  template : ∀ {k : Nat} {t : Template}, a.templates[k]? = some t → t.id = ⟨k⟩ ∧ t.WellBuilt
  proper : ∀ {id : NodeId} {o : Occupant}, a.occupant? id = some o → o.Proper host a.templates
  noEmptyList : a.NoEmptyList
  nodup_listed : ∀ key, (a.listed key).Nodup
  mem_listed : ∀ {key : UInt64} {id : NodeId}, id ∈ a.listed key ↔ a.Finds (·.key? = some key) id
  size_coreNodes : a.coreNodes.size = a.templates.size
  coreNode : ∀ {k : TemplateId} {stage : Nat} {id : NodeId}, a.coreNode k stage = .ok id ↔
    a.Finds (fun o => o.node.isCore = true ∧ o.node.template = k ∧ o.node.stage = stage) id

theorem coreNode_eq_ok {a : Arena} {k : TemplateId} {stage : Nat} {id : NodeId} :
    a.coreNode k stage = .ok id ↔ ∃ ids, a.coreNodes[k.index]? = some ids ∧ ids[stage]? = some id := by
  unfold coreNode
  cases a.coreNodes[k.index]? with
  | none => simp
  | some ids =>
    simp only [Option.some.injEq, exists_eq_left']
    split <;> simp [*]

variable {host : Host} {a : Arena}

theorem sound_empty : Sound host empty where
  freeListed := freeListed_empty
  template := by simp [empty]
  proper := by simp [empty, occupant?]
  noEmptyList := by simp [NoEmptyList, empty]
  nodup_listed := by simp [listed, empty]
  mem_listed := by simp [listed, empty, Finds, occupant?]
  size_coreNodes := rfl
  coreNode := by simp [coreNode_eq_ok, empty, Finds, occupant?]

namespace Sound

/-- What changes a node without changing what it is changes nothing that the arena ties to it. -/
theorem updateOccupant (h : Sound host a) {id : NodeId} {o : Occupant} (live : a.occupant? id = some o)
    {change : Occupant → Occupant} (template : (change o).node.template = o.node.template)
    (stage : (change o).node.stage = o.node.stage) (content : (change o).node.content = o.node.content)
    (key : (change o).key? = o.key?) (held : 1 ≤ (change o).holders)
    (core : o.node.isCore = true → (change o).holders = 1) : Sound host (a.updateOccupant id change) := by
  have isCore : (change o).node.isCore = o.node.isCore := by rw [Node.isCore, content, Node.isCore]
  have hashed : (change o).node.key host.hash = o.node.key host.hash := by
    rw [Node.key, Node.patch?, content, Node.key, Node.patch?]
  exact {
    freeListed := h.freeListed.freeListed_updateOccupant id change
    template := h.template
    proper := fun {i p} found => by
      rw [occupant?_updateOccupant live] at found
      split at found
      · obtain rfl := Option.some.inj found
        have proper := h.proper live
        exact {
          anchored := by rw [template, stage]; exact proper.anchored
          held := held
          core := fun hc => ⟨core (isCore ▸ hc), key.trans (proper.core (isCore ▸ hc)).2⟩
          scenario := fun hs => by rw [key, hashed]; exact proper.scenario (isCore ▸ hs) }
      · exact h.proper found
    noEmptyList := h.noEmptyList
    nodup_listed := h.nodup_listed
    mem_listed := by
      intro k i
      rw [finds_updateOccupant live (by rw [key]), ← h.mem_listed]
      exact Iff.rfl
    size_coreNodes := h.size_coreNodes
    coreNode := by
      intro k s i
      rw [finds_updateOccupant live (by rw [isCore, template, stage]), ← h.coreNode]
      exact Iff.rfl }

theorem setHolders (h : Sound host a) {id : NodeId} {o : Occupant} (live : a.occupant? id = some o)
    (own : o.node.isCore = false) {holders : Nat} (held : 1 ≤ holders) : Sound host (a.setHolders id holders) :=
  h.updateOccupant live rfl rfl rfl rfl held fun core => absurd (own.symm.trans core) Bool.false_ne_true

theorem withNode (h : Sound host a) {core : Template} {stage : Nat} {patch : Patch}
    (found : a.templates[core.id.index]? = some core) (lt : stage < core.numStages) :
    Sound host (a.withNode ((Node.patched core stage patch).key host.hash) (Node.patched core stage patch)) := by
  obtain ⟨fresh, occupants⟩ := occupant?_withNode h.freeListed ((Node.patched core stage patch).key host.hash)
    (Node.patched core stage patch)
  exact {
    freeListed := ⟨(h.freeListed.freeListed_insert _).nodup, (h.freeListed.freeListed_insert _).mem_free⟩
    template := by rw [templates_withNode]; exact h.template
    proper := fun {i p} live => by
      rw [templates_withNode]
      rw [occupants] at live
      split at live
      · obtain rfl := Option.some.inj live
        exact ⟨⟨core, found, lt⟩, Nat.le_refl 1, fun isCore => absurd isCore Bool.false_ne_true, fun _ => rfl⟩
      · exact h.proper live
    noEmptyList := noEmptyList_enroll (by
      intro k hk
      rw [listed_insert]
      exact h.noEmptyList k (by rwa [catalog_insert] at hk)) _ _
    nodup_listed := fun k => by
      rw [listed_withNode]
      split
      · refine List.nodup_append.2 ⟨h.nodup_listed _, List.pairwise_singleton .., fun i hi j hj => ?_⟩
        rw [List.mem_singleton.1 hj]
        rintro rfl
        exact not_finds fresh (h.mem_listed.1 hi)
      · exact h.nodup_listed k
    mem_listed := by
      intro k i
      rw [finds_withNode h.freeListed, ← h.mem_listed, listed_withNode]
      by_cases hk : (Node.patched core stage patch).key host.hash = k
      · rw [if_pos hk, hk, List.mem_append, List.mem_singleton]
        simp [or_comm]
      · rw [if_neg hk]
        simp [hk]
    size_coreNodes := by rw [templates_withNode, coreNodes_withNode]; exact h.size_coreNodes
    coreNode := by
      intro k s i
      rw [finds_withNode h.freeListed, ← h.coreNode, coreNode_eq_ok, coreNodes_withNode, coreNode_eq_ok]
      simp [Node.isCore, Node.fresh] }

theorem remove (h : Sound host a) {id : NodeId} {o : Occupant} (live : a.occupant? id = some o)
    (own : o.node.isCore = false) : Sound host (a.remove id o.key?) := by
  have key := (h.proper live).scenario own
  obtain ⟨templates, coreNodes⟩ := a.templates_remove id o.key?
  exact {
    freeListed := h.freeListed.remove live _
    template := by rw [templates]; exact h.template
    proper := fun {i p} found => by
      rw [templates]
      rw [occupant?_remove live] at found
      split at found
      · cases found
      · exact h.proper found
    noEmptyList := by
      rw [key]
      exact noEmptyList_strike (a := a.vacate id.index) h.noEmptyList _ _
    nodup_listed := fun k => by
      rw [key, listed_remove]
      split
      · exact (h.nodup_listed _).filter _
      · exact h.nodup_listed k
    mem_listed := by
      intro k i
      rw [finds_remove live, ← h.mem_listed, key, listed_remove]
      by_cases hk : o.node.key host.hash = k
      · rw [if_pos hk, hk, List.mem_filter, and_comm, decide_eq_true_eq]
      · rw [if_neg hk]
        refine ⟨fun hi => ⟨?_, hi⟩, And.right⟩
        rintro rfl
        rw [h.mem_listed, finds_iff live, key, Option.some.injEq] at hi
        exact hk hi
    size_coreNodes := by rw [templates, coreNodes]; exact h.size_coreNodes
    coreNode := by
      intro k s i
      rw [finds_remove live, ← h.coreNode, coreNode_eq_ok, coreNodes, ← coreNode_eq_ok]
      refine ⟨fun hi => ⟨?_, hi⟩, And.right⟩
      rintro rfl
      rw [h.coreNode, finds_iff live, own] at hi
      cases hi.1 }

theorem withTemplate (h : Sound host a) {t : Template} (id : t.id = ⟨a.templates.size⟩) (built : t.WellBuilt) :
    Sound host (a.withTemplate t) := by
  have added := h.freeListed.withTemplate t
  exact {
    freeListed := added.freeListed
    template := by
      intro k u hu
      rw [added.templates, Array.getElem?_push] at hu
      split at hu
      · rename_i hk
        obtain rfl := Option.some.inj hu
        exact ⟨by rw [id, hk], built⟩
      · exact h.template hu
    proper := fun {i p} found => by
      rw [added.templates]
      by_cases hi : i ∈ a.coreIds t
      · obtain ⟨stage, hs⟩ := List.mem_iff_getElem?.1 hi
        rw [added.found hs] at found
        obtain rfl := Option.some.inj found
        have lt : stage < t.numStages := added.length ▸ (List.getElem?_eq_some_iff.1 hs).1
        refine ⟨⟨t, ?_, lt⟩, Nat.le_refl 1, fun _ => ⟨rfl, rfl⟩, fun own => by cases own⟩
        show (a.templates.push t)[t.id.index]? = some t
        rw [id, Array.getElem?_push, if_pos rfl]
      · rw [added.other i hi] at found
        exact (h.proper found).push t
    noEmptyList := by
      intro k hk
      rw [listed, added.catalog]
      exact h.noEmptyList k (added.catalog ▸ hk)
    nodup_listed := fun k => by
      rw [listed, added.catalog]
      exact h.nodup_listed k
    mem_listed := by
      intro k i
      rw [added.finds, ← h.mem_listed, listed, added.catalog]
      simp [coreOccupant, listed]
    size_coreNodes := by rw [added.templates, added.coreNodes, Array.size_push, Array.size_push, h.size_coreNodes]
    coreNode := by
      intro k s i
      rw [added.finds, ← h.coreNode, coreNode_eq_ok, added.coreNodes, Array.getElem?_push, coreNode_eq_ok,
        h.size_coreNodes]
      have template : ∀ stage, (coreOccupant t stage).node.template = k ↔ k.index = a.templates.size := fun stage => by
        show t.id = k ↔ _
        cases k
        rw [id, TemplateId.mk.injEq, eq_comm]
      have isCore : ∀ stage, (coreOccupant t stage).node.isCore = true := fun _ => rfl
      have own : ∀ stage, (coreOccupant t stage).node.stage = stage := fun _ => rfl
      by_cases hk : k.index = a.templates.size
      · have unused : a.coreNodes[a.templates.size]? = none :=
          Array.getElem?_eq_none (Nat.le_of_eq h.size_coreNodes)
        simp [hk, unused, template, isCore, own]
      · simp [hk, template] }

/-- A node that is accepted is a scenario node of the template that was asked for. -/
theorem accepted (h : Sound host a) {k : TemplateId} {limit stage : Nat} {overrides : Overrides} {core : Template}
    {node : Node} {tally : Tally} (found : a.templates[k.index]? = some core)
    (accepted : Node.ofOverridesBy limit core stage overrides = .ok (node, tally)) :
    core.id = k ∧ stage < core.numStages ∧ ∃ patch, node = Node.patched core stage patch := by
  obtain ⟨id, built⟩ := h.template found
  obtain ⟨lt, -, patch, same, -⟩ := Node.ofOverrides_eq_ok built accepted
  exact ⟨id, lt, patch, same⟩

/-- A live node is found together with its template, and its stage is one of the template's. -/
theorem resolve_eq (h : Sound host a) {id : NodeId} {o : Occupant} (live : a.occupant? id = some o) :
    ∃ t, a.template o.node.template = .ok t ∧ o.node.stage < t.numStages ∧ a.resolve id none = .ok (o.node, t) := by
  obtain ⟨t, found, lt⟩ := (h.proper live).anchored
  exact ⟨t, template_eq_ok.2 found, lt, resolve_eq_ok.2 ⟨o, live, rfl, found⟩⟩

theorem listed_of_alike (h : Sound host a) {node : Node} {i : NodeId} {o : Occupant} (live : a.occupant? i = some o)
    (same : alike o.node node = true) : i ∈ a.listed (node.key host.hash) := by
  obtain ⟨-, -, -, content⟩ := alike_eq_true.1 same
  have key : o.key? = some (node.key host.hash) := by
    rw [(h.proper live).scenario (isCore_of_alike same), Node.key, Node.patch?, content, Node.key, Node.patch?]
  exact h.mem_listed.2 (.of live key)

/-- **If nothing alike is found then there is nothing alike**, whatever the hash. -/
theorem not_alike (h : Sound host a) {node : Node} (none : a.findAlike (node.key host.hash) node = none) (i : NodeId) :
    ¬ a.Finds (fun o => alike o.node node = true) i := by
  rintro ⟨o, live, same⟩
  have missed := List.find?_eq_none.1 none i (h.listed_of_alike live same)
  rw [live] at missed
  exact missed same

/-- **Every step keeps the parts of the arena in agreement.** -/
theorem step (h : Sound host a) {c : Call} {r : Except Error Answer} {b : Arena} (step : Step host a c r b) :
    Sound host b := by
  cases step with
  | refused => exact h
  | template built => exact h.withTemplate (Template.build_eq_ok built).1 (Template.wellBuilt_of_build built)
  | created found accepted =>
    obtain ⟨rfl, lt, patch, rfl⟩ := h.accepted found accepted
    exact h.withNode found lt
  | shared _ _ _ live same => exact h.setHolders live (isCore_of_alike same) (Nat.le_add_left ..)
  | retained live own => exact h.setHolders live own (Nat.le_add_left ..)
  | counted => exact h
  | dropped live own more => exact h.setHolders live own (Nat.le_sub_one_of_lt more)
  | freed live own => exact h.remove live own
  | unread => exact h
  | read live =>
    exact h.updateOccupant live rfl rfl rfl rfl (h.proper live).held fun core => ((h.proper live).core core).1

end Sound
end Arena
end Multistage
