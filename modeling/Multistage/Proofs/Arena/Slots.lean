import Multistage.Arena
/-!
# Slots, generations and handles

An arena's slots are seen through two functions: what stands at an index, and the index's generation.  A handle
finds what stands at its index as long as the generation is its own, so what each operation does to the two
functions says what it does to every handle.

Putting in, changing and taking out each touch one handle and no other.  That is so because the free list holds
exactly the empty slots (`FreeListed`), and because a handle that finds something is the only one of its index to do
so.
-/
namespace Multistage
namespace Arena

/-- What stands at an index. -/
def at? (a : Arena) (i : Nat) : Option Occupant := a.slots[i]?.bind (·.occupant?)

/-- The generation of an index; an index without a slot is in the generation that its slot will start with. -/
def generation (a : Arena) (i : Nat) : UInt32 := (a.slots[i]?.map (·.generation)).getD 0

theorem occupant?_eq (a : Arena) (id : NodeId) :
    a.occupant? id = if a.generation id.index = id.generation then a.at? id.index else none := by
  unfold occupant? at? generation
  cases a.slots[id.index]? <;> simp

theorem occupant?_eq_some {a : Arena} {id : NodeId} {o : Occupant} :
    a.occupant? id = some o ↔ a.generation id.index = id.generation ∧ a.at? id.index = some o := by
  rw [occupant?_eq]
  split <;> simp [*]

theorem eq_of_index_eq {a : Arena} {i j : NodeId} (hi : a.occupant? i ≠ none) (hj : a.occupant? j ≠ none)
    (same : i.index = j.index) : i = j := by
  obtain ⟨o, hi⟩ := Option.ne_none_iff_exists'.1 hi
  obtain ⟨p, hj⟩ := Option.ne_none_iff_exists'.1 hj
  obtain ⟨gi, -⟩ := occupant?_eq_some.1 hi
  obtain ⟨gj, -⟩ := occupant?_eq_some.1 hj
  cases i; cases j
  simp only at same gi gj
  subst same
  rw [← gi, ← gj]

theorem at?_eq_some {a : Arena} {i : Nat} {o : Occupant} :
    a.at? i = some o ↔ ∃ slot, a.slots[i]? = some slot ∧ slot.occupant? = some o := Option.bind_eq_some_iff

theorem at?_eq_none_of_size_le {a : Arena} {i : Nat} (h : a.slots.size ≤ i) : a.at? i = none := by
  rw [at?, Array.getElem?_eq_none h]
  rfl

/-! ## What the operations do at each index -/

theorem at?_modify (a : Arena) (j : Nat) (change : Slot → Slot) (i : Nat) :
    ({ a with slots := a.slots.modify j change } : Arena).at? i =
      a.slots[i]?.bind fun slot => if j = i then (change slot).occupant? else slot.occupant? := by
  rw [at?, Array.getElem?_modify]
  split <;> cases a.slots[i]? <;> simp

theorem generation_modify (a : Arena) (j : Nat) (change : Slot → Slot) (i : Nat) :
    ({ a with slots := a.slots.modify j change } : Arena).generation i =
      (a.slots[i]?.map fun slot => if j = i then (change slot).generation else slot.generation).getD 0 := by
  rw [generation, Array.getElem?_modify]
  split <;> cases a.slots[i]? <;> simp

theorem at?_occupy (a : Arena) {j : Nat} (inside : j < a.slots.size) (o : Occupant) (i : Nat) :
    ({ a with slots := a.slots.modify j fun slot => { slot with occupant? := some o } } : Arena).at? i =
      if j = i then some o else a.at? i := by
  rw [at?_modify]
  by_cases hi : j = i
  · subst hi
    rw [Array.getElem?_eq_getElem inside]
    simp
  · simp [hi, at?]

theorem generation_occupy (a : Arena) (j : Nat) (o : Occupant) (i : Nat) :
    ({ a with slots := a.slots.modify j fun slot => { slot with occupant? := some o } } : Arena).generation i =
      a.generation i := by
  rw [generation_modify, generation]
  cases a.slots[i]? <;> simp

theorem at?_push (a : Arena) (o : Occupant) (i : Nat) :
    ({ a with slots := a.slots.push ⟨0, some o⟩ } : Arena).at? i =
      if a.slots.size = i then some o else a.at? i := by
  rw [at?, Array.getElem?_push]
  by_cases hi : i = a.slots.size
  · simp [hi]
  · simp [hi, Ne.symm hi, at?]

theorem generation_push (a : Arena) (o : Occupant) (i : Nat) :
    ({ a with slots := a.slots.push ⟨0, some o⟩ } : Arena).generation i = a.generation i := by
  rw [generation, Array.getElem?_push]
  by_cases hi : i = a.slots.size
  · simp [hi, generation]
  · simp [hi, generation]

theorem at?_updateOccupant (a : Arena) (id : NodeId) (change : Occupant → Occupant) (i : Nat) :
    (a.updateOccupant id change).at? i = if id.index = i then (a.at? i).map change else a.at? i := by
  rw [updateOccupant, at?_modify, at?]
  cases a.slots[i]? <;> split <;> simp

@[simp] theorem generation_updateOccupant (a : Arena) (id : NodeId) (change : Occupant → Occupant) (i : Nat) :
    (a.updateOccupant id change).generation i = a.generation i := by
  rw [updateOccupant, generation_modify, generation]
  cases a.slots[i]? <;> simp

theorem at?_vacate (a : Arena) (j i : Nat) : (a.vacate j).at? i = if j = i then none else a.at? i := by
  have slots : (a.vacate j).at? i = ({ a with slots := a.slots.modify j fun slot =>
    { generation := slot.generation + 1, occupant? := none } } : Arena).at? i := rfl
  rw [slots, at?_modify, at?]
  cases a.slots[i]? <;> split <;> simp

theorem generation_vacate (a : Arena) {j : Nat} (occupied : a.at? j ≠ none) (i : Nat) :
    (a.vacate j).generation i = if j = i then a.generation i + 1 else a.generation i := by
  have slots : (a.vacate j).generation i = ({ a with slots := a.slots.modify j fun slot =>
    { generation := slot.generation + 1, occupant? := none } } : Arena).generation i := rfl
  rw [slots, generation_modify, generation]
  split
  · rename_i h
    subst h
    cases hs : a.slots[j]? with
    | none => exact absurd (by rw [at?, hs]; rfl) occupied
    | some slot => simp
  · rename_i h
    cases a.slots[i]? <;> simp

theorem slots_strike (a : Arena) (key : UInt64) (id : NodeId) :
    (a.strike key id).slots = a.slots ∧ (a.strike key id).free = a.free ∧
      (a.strike key id).templates = a.templates ∧ (a.strike key id).coreNodes = a.coreNodes := by
  unfold strike
  split <;> exact ⟨rfl, rfl, rfl, rfl⟩

@[simp] theorem at?_strike (a : Arena) (key : UInt64) (id : NodeId) (i : Nat) : (a.strike key id).at? i = a.at? i := by
  rw [at?, (a.slots_strike key id).1, at?]

@[simp] theorem generation_strike (a : Arena) (key : UInt64) (id : NodeId) (i : Nat) :
    (a.strike key id).generation i = a.generation i := by
  rw [generation, (a.slots_strike key id).1, generation]

/-! ## The free list -/

/-- The free list names the empty slots, each once. -/
structure FreeListed (a : Arena) : Prop where
  nodup : a.free.Nodup
  mem_free : ∀ {i : Nat}, i ∈ a.free ↔ i < a.slots.size ∧ a.at? i = none

theorem freeListed_empty : empty.FreeListed where
  nodup := List.nodup_nil
  mem_free {i} := by simp [empty]

def nextIndex (a : Arena) : Nat := a.free.head?.getD a.slots.size

namespace FreeListed

variable {a : Arena} (h : a.FreeListed)
include h

theorem at?_nextIndex : a.at? a.nextIndex = none := by
  cases hf : a.free with
  | nil =>
    rw [nextIndex, hf]
    exact at?_eq_none_of_size_le (Nat.le_refl _)
  | cons i free =>
    have member : i ∈ a.free := by rw [hf]; exact List.mem_cons_self ..
    rw [nextIndex, hf]
    exact (h.mem_free.1 member).2

theorem insert_eq (o : Occupant) : (a.insert o).1 = ⟨a.nextIndex, a.generation a.nextIndex⟩ ∧
    (∀ i, (a.insert o).2.at? i = if a.nextIndex = i then some o else a.at? i) ∧
    (∀ i, (a.insert o).2.generation i = a.generation i) := by
  unfold insert nextIndex
  cases hf : a.free with
  | nil =>
    rw [List.head?_nil, Option.getD_none]
    refine ⟨?_, fun i => at?_push .., fun i => generation_push ..⟩
    rw [generation, Array.getElem?_eq_none (Nat.le_refl _)]
    rfl
  | cons index free =>
    have member : index ∈ a.free := by rw [hf]; exact List.mem_cons_self ..
    rw [List.head?_cons, Option.getD_some]
    exact ⟨rfl, fun i => at?_occupy a (h.mem_free.1 member).1 .., fun i => generation_occupy ..⟩

/-- **Putting a node in gives it a handle that found nothing before, and touches no other handle.** -/
theorem occupant?_insert (o : Occupant) : a.occupant? (a.insert o).1 = none ∧
    ∀ i, (a.insert o).2.occupant? i = if i = (a.insert o).1 then some o else a.occupant? i := by
  obtain ⟨id, occupants, generations⟩ := h.insert_eq o
  have empty : a.occupant? (a.insert o).1 = none := by rw [id, occupant?_eq, h.at?_nextIndex]; split <;> rfl
  refine ⟨empty, fun i => ?_⟩
  rw [occupant?_eq, occupants, generations]
  by_cases hi : i = (a.insert o).1
  · rw [if_pos hi, hi, id, if_pos rfl, if_pos rfl]
  · rw [if_neg hi, occupant?_eq]
    by_cases hn : a.nextIndex = i.index
    · have stale : ¬ a.generation i.index = i.generation := fun hg => hi (by
        rw [id, hn, hg])
      rw [if_neg stale, if_neg stale]
    · rw [if_neg hn]

theorem freeListed_insert (o : Occupant) : (a.insert o).2.FreeListed := by
  have occupants := (h.insert_eq o).2.1
  unfold nextIndex at occupants
  cases hf : a.free with
  | nil =>
    have eq : (a.insert o).2 = { a with slots := a.slots.push ⟨0, some o⟩ } := by rw [insert, hf]
    have size : (a.insert o).2.slots.size = a.slots.size + 1 := by rw [eq]; exact Array.size_push ..
    rw [hf, List.head?_nil, Option.getD_none] at occupants
    refine ⟨by rw [eq]; exact h.nodup, fun {i} => ?_⟩
    rw [size, occupants, eq, h.mem_free]
    constructor
    · rintro ⟨lt, hi⟩
      exact ⟨by omega, by rw [if_neg (by omega)]; exact hi⟩
    · rintro ⟨lt, hi⟩
      by_cases same : a.slots.size = i
      · rw [if_pos same] at hi
        cases hi
      · rw [if_neg same] at hi
        exact ⟨by omega, hi⟩
  | cons index free =>
    have slots : (a.insert o).2.free = free ∧ (a.insert o).2.slots.size = a.slots.size := by
      rw [insert, hf]
      exact ⟨rfl, Array.size_modify ..⟩
    have nodup := List.nodup_cons.1 (hf ▸ h.nodup)
    rw [hf, List.head?_cons, Option.getD_some] at occupants
    refine ⟨by rw [slots.1]; exact nodup.2, fun {i} => ?_⟩
    have mem := h.mem_free (i := i)
    rw [hf, List.mem_cons] at mem
    rw [slots.1, slots.2, occupants]
    by_cases same : index = i
    · subst same
      simp [nodup.1]
    · rw [if_neg same, ← mem]
      simp [Ne.symm same]

theorem freeListed_updateOccupant (id : NodeId) (change : Occupant → Occupant) :
    (a.updateOccupant id change).FreeListed where
  nodup := h.nodup
  mem_free {i} := by
    have size : (a.updateOccupant id change).slots.size = a.slots.size := Array.size_modify ..
    have free : (a.updateOccupant id change).free = a.free := rfl
    rw [free, h.mem_free, size, at?_updateOccupant]
    split <;> simp

theorem freeListed_vacate {j : Nat} (occupied : a.at? j ≠ none) : (a.vacate j).FreeListed where
  nodup := List.nodup_cons.2 ⟨fun hj => occupied (h.mem_free.1 hj).2, h.nodup⟩
  mem_free {i} := by
    have inside : j < a.slots.size := Nat.lt_of_not_le fun le => occupied (at?_eq_none_of_size_le le)
    have size : (a.vacate j).slots.size = a.slots.size := Array.size_modify ..
    have free : (a.vacate j).free = j :: a.free := rfl
    rw [free, List.mem_cons, h.mem_free, size, at?_vacate]
    by_cases same : j = i
    · subst same
      simp [inside]
    · simp [same, Ne.symm same]

end FreeListed

/-! ## What changing and taking out do to each handle -/

/-- **Changing an occupant touches no other handle.** -/
theorem occupant?_updateOccupant {a : Arena} {id : NodeId} {o : Occupant} (live : a.occupant? id = some o)
    (change : Occupant → Occupant) (i : NodeId) :
    (a.updateOccupant id change).occupant? i = if i = id then some (change o) else a.occupant? i := by
  obtain ⟨current, stands⟩ := occupant?_eq_some.1 live
  rw [occupant?_eq, generation_updateOccupant, at?_updateOccupant]
  by_cases hi : i = id
  · subst hi
    rw [if_pos current, if_pos rfl, if_pos rfl, stands]
    rfl
  · rw [if_neg hi, occupant?_eq]
    by_cases hn : id.index = i.index
    · have stale : ¬ a.generation i.index = i.generation := fun hg => hi (by
        cases i; cases id
        simp only at hn hg current
        subst hn
        rw [← hg, ← current])
      rw [if_neg stale, if_neg stale]
    · rw [if_neg hn]

/-- **Taking a node out touches no other handle.** -/
theorem occupant?_vacate {a : Arena} {id : NodeId} {o : Occupant} (live : a.occupant? id = some o) (i : NodeId) :
    (a.vacate id.index).occupant? i = if i = id then none else a.occupant? i := by
  have other := fun (hi : i ≠ id) (hn : i.index = id.index) => Classical.byContradiction fun found =>
    hi (eq_of_index_eq found (live ▸ Option.some_ne_none o) hn)
  rw [occupant?_eq, at?_vacate]
  by_cases hn : id.index = i.index
  · rw [if_pos hn, ite_self]
    by_cases hi : i = id
    · rw [if_pos hi]
    · rw [if_neg hi, other hi hn.symm]
  · have hi : i ≠ id := fun hi => hn (by rw [hi])
    rw [if_neg hn, if_neg hi, generation_vacate a (by rw [(occupant?_eq_some.1 live).2]; simp), if_neg hn,
      occupant?_eq]

@[simp] theorem occupant?_strike (a : Arena) (key : UInt64) (id i : NodeId) :
    (a.strike key id).occupant? i = a.occupant? i := by
  rw [occupant?_eq, generation_strike, at?_strike, occupant?_eq]

/-! ## Counting what is live -/

/-- The handles that find something, in the order of their slots. -/
def liveIds (a : Arena) : List NodeId :=
  (a.slots.toList.zipIdx.filter (·.1.occupant?.isSome)).map fun (slot, index) => ⟨index, slot.generation⟩

theorem mem_liveIds {a : Arena} {id : NodeId} : id ∈ a.liveIds ↔ ∃ o, a.occupant? id = some o := by
  simp only [liveIds, List.mem_map, List.mem_filter, List.mem_zipIdx_iff_getElem?, Array.getElem?_toList, Prod.exists]
  constructor
  · rintro ⟨slot, index, ⟨here, some⟩, rfl⟩
    obtain ⟨o, stands⟩ := Option.isSome_iff_exists.1 some
    exact ⟨o, by simp [occupant?, here, stands]⟩
  · rintro ⟨o, live⟩
    rw [occupant?] at live
    split at live
    · rename_i slot here
      split at live
      · rename_i current
        exact ⟨slot, id.index, ⟨here, Option.isSome_of_eq_some live⟩, by rw [current]⟩
      · cases live
    · cases live

theorem nodup_liveIds (a : Arena) : a.liveIds.Nodup := by
  have indices : (a.slots.toList.zipIdx.map Prod.snd).Nodup := by
    rw [List.zipIdx_map_snd]
    exact List.nodup_range'
  have distinct : (a.liveIds.map (·.index)).Nodup := by
    rw [liveIds, List.map_map]
    exact indices.sublist (List.filter_sublist.map Prod.snd)
  exact (List.pairwise_map.1 distinct).imp fun other same => other (by rw [same])

theorem length_liveIds (a : Arena) : a.liveIds.length = a.liveNodes := by
  have slots : a.slots.toList.zipIdx.map Prod.fst = a.slots.toList := List.zipIdx_map_fst ..
  rw [liveIds, List.length_map, ← List.countP_eq_length_filter, liveNodes, ← Array.countP_toList, ← slots,
    List.countP_map, slots]
  rfl

end Arena
end Multistage
