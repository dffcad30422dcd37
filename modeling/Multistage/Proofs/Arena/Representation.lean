import Mathlib.Data.List.Nodup
import Multistage.Proofs.Arena.History
/-!
# How an arena represents its nodes

`represented_after` says of every arena that a history leads to how its parts fit together: which slots are free, who is
held, which handles the catalog lists, that every live node resolves, and where the core nodes are.  Nearly all of it is
`Sound` read slot by slot and key by key.  What `Sound` does not say is that no stage of a template is without a core
node (`CoresRecorded`): that is kept because only the adding of a template touches the table of core nodes, and it
records one for each stage.
-/
namespace Multistage
namespace Arena

variable {host : Host} {a b : Arena} {c : Call} {r : Except Error Answer}

/-! ## The tables of templates and core nodes -/

/-- Every template has one core node recorded for each of its stages. -/
def CoresRecorded (a : Arena) : Prop :=
  ∀ (k : Nat) (t : Template), a.templates[k]? = some t → ∃ ids, a.coreNodes[k]? = some ids ∧ ids.size = t.numStages

theorem Sound.coresRecorded_withTemplate (h : Sound host a) (recorded : a.CoresRecorded) (t : Template) :
    (a.withTemplate t).CoresRecorded := by
  have added := h.freeListed.withTemplate t
  intro k u found
  rw [added.templates, Array.getElem?_push] at found
  rw [added.coreNodes, Array.getElem?_push, h.size_coreNodes]
  split at found
  · rename_i new
    obtain rfl := Option.some.inj found
    exact ⟨_, if_pos new, (List.size_toArray ..).trans added.length⟩
  · rename_i old
    rw [if_neg old]
    exact recorded k u found

theorem coresRecorded_after (calls : List Call) : (after host calls).CoresRecorded := by
  induction calls using List.reverseRecOn with
  | nil => exact fun k t found => by cases found
  | append_singleton calls c ih =>
    have step : Step host (after host calls) c _ _ := step_after calls c
    rcases templates_step step with ⟨templates, coreNodes⟩ | ⟨t, -, added⟩
    · rw [CoresRecorded, templates, coreNodes]
      exact ih
    · rw [added]
      exact (sound_after calls).coresRecorded_withTemplate ih t

/-! ## The whole catalog -/

/-- The handles in the catalog, one key after another. -/
def catalogued (a : Arena) : List NodeId := a.catalog.toList.flatMap (·.2)

theorem listed_of_getElem? {key : UInt64} {ids : List NodeId} (found : a.catalog[key]? = some ids) :
    a.listed key = ids := by
  rw [listed, Std.TreeMap.getD_eq_getD_getElem?, found, Option.getD_some]

theorem mem_listed_iff {key : UInt64} {id : NodeId} :
    id ∈ a.listed key ↔ ∃ ids, a.catalog[key]? = some ids ∧ id ∈ ids := by
  constructor
  · intro member
    rw [listed, Std.TreeMap.getD_eq_getD_getElem?] at member
    cases found : a.catalog[key]? with
    | none =>
      rw [found] at member
      cases member
    | some ids =>
      rw [found] at member
      exact ⟨ids, rfl, member⟩
  · rintro ⟨ids, found, member⟩
    rwa [listed_of_getElem? found]

theorem mem_catalogued {id : NodeId} : id ∈ a.catalogued ↔ ∃ key, id ∈ a.listed key := by
  simp only [catalogued, List.mem_flatMap, Prod.exists, Std.TreeMap.mem_toList_iff_getElem?_eq_some, mem_listed_iff]

/-- No handle is in the catalog twice: not under one key, and not under two, since a node has one hash. -/
theorem Sound.nodup_catalogued (h : Sound host a) : a.catalogued.Nodup := by
  have listed : ∀ p ∈ a.catalog.toList, a.listed p.1 = p.2 := fun p member =>
    listed_of_getElem? (Std.TreeMap.mem_toList_iff_getElem?_eq_some.1 member)
  refine List.nodup_flatMap.2 ⟨fun p member => listed p member ▸ h.nodup_listed p.1, ?_⟩
  refine (Std.TreeMap.distinct_keys_toList (t := a.catalog)).imp_of_mem fun {p q} hp hq apart => ?_
  intro id (inP : id ∈ p.2) (inQ : id ∈ q.2)
  obtain ⟨o, live, key⟩ := h.mem_listed.1 (listed p hp ▸ inP)
  have other := (finds_iff live).1 (h.mem_listed.1 (listed q hq ▸ inQ))
  exact apart (Std.LawfulEqOrd.compare_eq_iff_eq.2 (Option.some.inj (key.symm.trans other)))

/-! ## All parts together -/

/-- How the parts of an arena fit together. -/
structure Represented (host : Host) (a : Arena) : Prop where
  nodup_free : a.free.Nodup
  mem_free : ∀ i, i ∈ a.free ↔ ∃ slot, a.slots[i]? = some slot ∧ slot.occupant? = none
  held : ∀ (i : Nat) (slot : Slot) (o : Occupant), a.slots[i]? = some slot → slot.occupant? = some o →
    1 ≤ o.holders ∧ (o.node.isCore = true → o.holders = 1)
  /-- The current handle of a scenario node is listed under the node's hash, and nowhere else. -/
  scenario : ∀ (i : Nat) (slot : Slot) (o : Occupant), a.slots[i]? = some slot → slot.occupant? = some o →
    o.node.isCore = false → a.catalogued.count ⟨i, slot.generation⟩ = 1 ∧
      ∃ ids, a.catalog[o.node.key host.hash]? = some ids ∧ ⟨i, slot.generation⟩ ∈ ids
  /-- Nobody else is listed, and no list is empty. -/
  listed : ∀ key ids, a.catalog[key]? = some ids → ids ≠ [] ∧
    ∀ id ∈ ids, ∃ o, a.occupant? id = some o ∧ o.node.isCore = false ∧ o.node.key host.hash = key
  resolves : ∀ id o, a.occupant? id = some o → ∃ t, a.template o.node.template = .ok t ∧
    o.node.stage < t.numStages ∧ a.resolve id none = .ok (o.node, t)
  coreNode : ∀ k t stage, a.template k = .ok t → stage < t.numStages → ∃ id o, a.coreNode k stage = .ok id ∧
    a.occupant? id = some o ∧ o.node.isCore = true ∧ o.node.template = k ∧ o.node.stage = stage
  coreNode_inj : ∀ k l stage stage' id, a.coreNode k stage = .ok id → a.coreNode l stage' = .ok id →
    k = l ∧ stage = stage'
  coreNode_of_live : ∀ id o, a.occupant? id = some o → o.node.isCore = true →
    a.coreNode o.node.template o.node.stage = .ok id

theorem occupant?_of_slot {i : Nat} {slot : Slot} {o : Occupant} (here : a.slots[i]? = some slot)
    (stands : slot.occupant? = some o) : a.occupant? ⟨i, slot.generation⟩ = some o := by
  rw [occupant?, here]
  exact (if_pos rfl).trans stands

theorem Sound.represented (h : Sound host a) (recorded : a.CoresRecorded) : Represented host a where
  nodup_free := h.freeListed.nodup
  mem_free i := by
    rw [h.freeListed.mem_free, at?]
    constructor
    · rintro ⟨inside, empty⟩
      rw [Array.getElem?_eq_getElem inside] at empty ⊢
      exact ⟨_, rfl, empty⟩
    · rintro ⟨slot, here, empty⟩
      exact ⟨(Array.getElem?_eq_some_iff.1 here).1, by rw [here]; exact empty⟩
  held i slot o here stands := by
    have proper := h.proper (occupant?_of_slot here stands)
    exact ⟨proper.held, fun core => (proper.core core).1⟩
  scenario i slot o here stands own := by
    have live := occupant?_of_slot here stands
    have member : ⟨i, slot.generation⟩ ∈ a.listed (o.node.key host.hash) :=
      h.mem_listed.2 (.of live ((h.proper live).scenario own))
    exact ⟨List.count_eq_one_of_mem h.nodup_catalogued (mem_catalogued.2 ⟨_, member⟩), mem_listed_iff.1 member⟩
  listed key ids found := by
    have listed := listed_of_getElem? found
    have used : key ∈ a.catalog := Std.TreeMap.mem_iff_isSome_getElem?.2 (by rw [found]; rfl)
    refine ⟨listed ▸ h.noEmptyList key used, fun id member => ?_⟩
    obtain ⟨o, live, key⟩ := h.mem_listed.1 (listed ▸ member)
    cases own : o.node.isCore with
    | true =>
      rw [((h.proper live).core own).2] at key
      cases key
    | false => exact ⟨o, live, own, Option.some.inj (((h.proper live).scenario own).symm.trans key)⟩
  resolves _ _ live := h.resolve_eq live
  coreNode k t stage found lt := by
    obtain ⟨ids, recorded, size⟩ := recorded k.index t (template_eq_ok.1 found)
    have found := coreNode_eq_ok.2 ⟨ids, recorded, Array.getElem?_eq_getElem (size.symm ▸ lt)⟩
    obtain ⟨o, live, core, template, stage⟩ := h.coreNode.1 found
    exact ⟨_, o, found, live, core, template, stage⟩
  coreNode_inj k l stage stage' id one two := by
    obtain ⟨o, live, -, rfl, rfl⟩ := h.coreNode.1 one
    have two := (finds_iff live).1 (h.coreNode.1 two)
    exact two.2
  coreNode_of_live id o live core := h.coreNode.2 (.of live ⟨core, rfl, rfl⟩)

/-- **The parts of an arena fit together after every history**, whatever the host. -/
theorem represented_after (host : Host) (calls : List Call) : Represented host (after host calls) :=
  (sound_after calls).represented (coresRecorded_after calls)

end Arena
end Multistage
