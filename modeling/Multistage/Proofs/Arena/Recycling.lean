import Mathlib.Order.Bounds.Basic
import Multistage.Proofs.Arena.History
/-!
# How many slots an arena needs

Slots are never given back, so their number can only be told from the past: it is the largest number of nodes that have been
live at one time (`recycles_after`).  Two facts lead there.  Every slot holds a live node or is on the free list, so an arena
has room for as many more nodes as there are free slots.  And a call that makes new slots has none left to spare, so a call
brings the number of slots to the number of live nodes, or leaves it as it is (`Grows`).
-/
namespace Multistage
namespace Arena

variable {host : Host} {a b c : Arena}

/-! ## Live and free slots -/

theorem mem_index_liveIds {i : Nat} : i ∈ a.liveIds.map (·.index) ↔ a.at? i ≠ none := by
  simp only [List.mem_map, mem_liveIds, Option.ne_none_iff_exists']
  constructor
  · rintro ⟨id, ⟨o, live⟩, rfl⟩
    exact ⟨o, (occupant?_eq_some.1 live).2⟩
  · rintro ⟨o, stands⟩
    exact ⟨⟨i, a.generation i⟩, ⟨o, occupant?_eq_some.2 ⟨rfl, stands⟩⟩, rfl⟩

theorem nodup_index_liveIds (a : Arena) : (a.liveIds.map (·.index)).Nodup := by
  refine List.pairwise_map.2 ((nodup_liveIds a).imp_of_mem fun {i j} hi hj other same => other ?_)
  exact eq_of_index_eq (Option.ne_none_iff_exists'.2 (mem_liveIds.1 hi)) (Option.ne_none_iff_exists'.2 (mem_liveIds.1 hj))
    same

namespace FreeListed

variable (h : a.FreeListed)
include h

/-- **Every slot holds a live node or is free**, and none does both. -/
theorem perm_slots : (a.free ++ a.liveIds.map (·.index)).Perm (List.range a.nodeSlots) := by
  refine (List.perm_ext_iff_of_nodup ?_ List.nodup_range).2 fun i => ?_
  · refine List.nodup_append.2 ⟨h.nodup, nodup_index_liveIds a, fun i free j live => ?_⟩
    rintro rfl
    exact mem_index_liveIds.1 live (h.mem_free.1 free).2
  · rw [List.mem_append, List.mem_range, h.mem_free, mem_index_liveIds]
    constructor
    · rintro (⟨inside, -⟩ | live)
      · exact inside
      · exact Nat.lt_of_not_le fun beyond => live (at?_eq_none_of_size_le beyond)
    · intro inside
      by_cases empty : a.at? i = none
      · exact .inl ⟨inside, empty⟩
      · exact .inr empty

theorem nodeSlots_eq : a.nodeSlots = a.liveNodes + a.free.length := by
  have length := h.perm_slots.length_eq
  rw [List.length_append, List.length_map, length_liveIds, List.length_range] at length
  omega

end FreeListed

/-! ## What a step adds -/

/-- The slots of the first arena are enough for the live nodes of the second one, or else there are just as many slots as
live nodes. -/
def Grows (a b : Arena) : Prop := b.nodeSlots = max a.nodeSlots b.liveNodes

theorem Grows.of_eq (h : b.FreeListed) (same : b.nodeSlots = a.nodeSlots) : Grows a b := by
  have := h.nodeSlots_eq
  unfold Grows
  omega

/-- Nodes that are added one after the other are added together. -/
theorem Grows.trans (first : Grows a b) (second : Grows b c) (more : b.liveNodes ≤ c.liveNodes) : Grows a c := by
  unfold Grows at *
  omega

theorem FreeListed.grows_insert (h : a.FreeListed) (o : Occupant) :
    Grows a (a.insert o).2 ∧ (a.insert o).2.liveNodes = a.liveNodes + 1 := by
  have before := h.nodeSlots_eq
  have after := (h.freeListed_insert o).nodeSlots_eq
  unfold Grows
  cases free : a.free with
  | nil =>
    have slots : (a.insert o).2.nodeSlots = a.nodeSlots + 1 := by
      rw [insert, free]
      exact Array.size_push ..
    have rest : (a.insert o).2.free = [] := by
      rw [insert, free]
    rw [rest] at after
    rw [free] at before
    simp only [List.length_nil] at before after
    omega
  | cons index others =>
    have slots : (a.insert o).2.nodeSlots = a.nodeSlots := by
      rw [insert, free]
      exact Array.size_modify ..
    have rest : (a.insert o).2.free = others := by
      rw [insert, free]
    rw [rest] at after
    rw [free, List.length_cons] at before
    omega

theorem FreeListed.grows_insertCores (t : Template) : ∀ (stages : List Nat) {a : Arena}, a.FreeListed →
    Grows a (insertCores t stages a).2 ∧ a.liveNodes ≤ (insertCores t stages a).2.liveNodes
  | [], a, h => ⟨.of_eq h rfl, Nat.le_refl _⟩
  | stage :: stages, a, h => by
    obtain ⟨first, one⟩ := h.grows_insert (coreOccupant t stage)
    obtain ⟨rest, more⟩ := grows_insertCores t stages (h.freeListed_insert (coreOccupant t stage))
    refine ⟨first.trans rest more, ?_⟩
    rw [one] at more
    exact Nat.le_of_succ_le more

/-- **A step makes a new slot only for a node that finds none free.** -/
theorem Sound.grows_step (h : Sound host a) {call : Call} {r : Except Error Answer} (step : Step host a call r b) :
    Grows a b := by
  have changed : ∀ id change, Grows a (a.updateOccupant id change) := fun id change =>
    .of_eq (h.freeListed.freeListed_updateOccupant id change) (Array.size_modify ..)
  cases step with
  | refused => exact .of_eq h.freeListed rfl
  | @template _ _ _ t built => exact (h.freeListed.grows_insertCores t (List.range t.numStages)).1
  | created => exact (h.freeListed.grows_insert _).1
  | shared => exact changed ..
  | retained => exact changed ..
  | counted => exact .of_eq h.freeListed rfl
  | dropped => exact changed ..
  | @freed id o live =>
    have slots : (a.remove id o.key?).nodeSlots = a.nodeSlots := by
      rw [nodeSlots, (a.slots_remove id o.key?).2]
      exact Array.size_modify ..
    exact .of_eq (h.freeListed.remove live _) slots
  | unread => exact .of_eq h.freeListed rfl
  | read => exact changed ..

theorem grows_after (calls : List Call) (call : Call) : Grows (after host calls) (after host (calls ++ [call])) :=
  (sound_after calls).grows_step (step_after calls call)

theorem nodeSlots_le_append (pre post : List Call) :
    (after host pre).nodeSlots ≤ (after host (pre ++ post)).nodeSlots := by
  induction post using List.reverseRecOn with
  | nil => rw [List.append_nil]
  | append_singleton post call ih =>
    have step : Grows (after host (pre ++ post)) (after host (pre ++ post ++ [call])) := grows_after ..
    rw [← List.append_assoc]
    unfold Grows at step
    omega

/-! ## Over a history -/

/-- How many nodes were live, at each time of a history. -/
def liveCounts (host : Host) (calls : List Call) : Set Nat :=
  {n | ∃ pre, pre <+: calls ∧ (after host pre).liveNodes = n}

theorem liveCounts_concat (calls : List Call) (call : Call) : liveCounts host (calls ++ [call]) =
    Insert.insert (after host (calls ++ [call])).liveNodes (liveCounts host calls) := by
  ext n
  simp only [liveCounts, List.prefix_concat_iff, Set.mem_ofPred_eq, Set.mem_insert_iff, or_and_right, exists_or,
    exists_eq_left, eq_comm]

/-- There are as many slots as nodes were ever live at one time. -/
theorem isGreatest_nodeSlots (calls : List Call) : IsGreatest (liveCounts host calls) (after host calls).nodeSlots := by
  induction calls using List.reverseRecOn with
  | nil =>
    refine ⟨⟨[], List.prefix_refl _, rfl⟩, ?_⟩
    rintro _ ⟨pre, before, rfl⟩
    rw [List.prefix_nil.1 before]
    exact Nat.le_refl _
  | append_singleton calls call ih =>
    have step : Grows (after host calls) (after host (calls ++ [call])) := grows_after ..
    rw [liveCounts_concat, step, max_comm]
    exact ih.insert _

/-- How the slots of an arena are used over a history. -/
structure Recycles (host : Host) (calls : List Call) : Prop where
  /-- The number of slots is the largest number of nodes that were live at one time. -/
  most : IsGreatest (liveCounts host calls) (after host calls).nodeSlots
  /-- No slot is lost: those without a live node are on the free list, each once. -/
  freeListed : (after host calls).FreeListed
  accounted : (after host calls).nodeSlots = (after host calls).liveNodes + (after host calls).free.length
  /-- A call takes the slots that are free before it makes new ones: where it makes new ones, no slot is free after it. -/
  grows : ∀ call, (after host (calls ++ [call])).nodeSlots =
    max (after host calls).nodeSlots (after host (calls ++ [call])).liveNodes
  mono : ∀ pre, pre <+: calls → (after host pre).nodeSlots ≤ (after host calls).nodeSlots

/-- **Slots are used again before new ones are made**, over every history: there are as many as nodes were ever live at one
time, and none is lost. -/
theorem recycles_after (host : Host) (calls : List Call) : Recycles host calls where
  most := isGreatest_nodeSlots calls
  freeListed := (sound_after calls).freeListed
  accounted := (sound_after calls).freeListed.nodeSlots_eq
  grows := grows_after calls
  mono := by
    rintro pre ⟨post, rfl⟩
    exact nodeSlots_le_append pre post

end Arena
end Multistage
