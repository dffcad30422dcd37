import Multistage.Proofs.Bucket
import Multistage.Proofs.Numbering
/-!
# The two passes that number an axis

The group of a stage is its external indices, ascending.  The first pass counts the groups (`tally_eq`), so that the
running sums say how many indices lie in front of a stage, its `offset`.

The second pass keeps to `Placed`: behind the offset of a stage, up to its cursor, stands the part of the group that has
been seen, and each index of that part has the number of its place.  One index more leaves that true (`Placed.put`): the
number under the cursor is a place of the group that has not been reached, and no two groups share a number.  So all of
the indices are placed (`placed_foldl`), the numbering is the groups laid end to end (`toExternal_layOut`) beside the way
back (`place_origin_layOut`), and that is coherent.
-/
namespace Multistage
namespace Numbering

/-! ## The groups of the stages -/

section Groups

variable (stageOf : Array Nat) (numStages : Nat)

/-- The external indices of a stage, ascending. -/
def group (stage : Nat) : List Nat := itemsAt stage stageOf.toList.zipIdx

theorem mem_group {stage e : Nat} : e ∈ group stageOf stage ↔ stageOf[e]? = some stage := by
  rw [group, mem_itemsAt, List.mem_zipIdx_iff_getElem?, Array.getElem?_toList]

theorem ascending_group (stage : Nat) : (group stageOf stage).Pairwise (· < ·) := by
  rw [group, itemsAt, List.pairwise_filterMap]
  exact (pairwise_zipIdx stageOf.toList).imp fun h => by grind

def groups : List (List Nat) := (List.range numStages).map (group stageOf)

theorem getElem?_groups {stage : Nat} (h : stage < numStages) :
    (groups stageOf numStages)[stage]? = some (group stageOf stage) := by
  simp [groups, h]

/-- How many indices lie in front of a stage. -/
def offset (stage : Nat) : Nat := ((groups stageOf numStages).take stage).flatten.length

/-- What stands at a place of a stage, in all groups laid end to end. -/
theorem getElem?_flatten_groups {stage p e : Nat} (h : stage < numStages) (he : (group stageOf stage)[p]? = some e) :
    (groups stageOf numStages).flatten[offset stageOf numStages stage + p]? = some e := by
  have hp := (List.getElem?_eq_some_iff.1 he).1
  rw [offset, getElem?_flatten_add _ _ _ _ (getElem?_groups stageOf numStages h) hp, he]

/-- Two indices at one number are the same place of the same stage. -/
theorem eq_of_offset_add_eq {t u p q : Nat} (ht : t < numStages) (hu : u < numStages)
    (hp : p < (group stageOf t).length) (hq : q < (group stageOf u).length)
    (h : offset stageOf numStages t + p = offset stageOf numStages u + q) : t = u ∧ p = q := by
  have atT := getElem?_flatten_groups stageOf numStages ht (List.getElem?_eq_getElem hp)
  have atU := getElem?_flatten_groups stageOf numStages hu (List.getElem?_eq_getElem hq)
  rw [h, atU, Option.some.injEq] at atT
  have ofT := (mem_group stageOf).1 (List.getElem_mem hp)
  have ofU := (mem_group stageOf).1 (List.getElem_mem hq)
  rw [← atT, ofU, Option.some.injEq] at ofT
  subst ofT
  exact ⟨rfl, by omega⟩

variable {stageOf numStages}

theorem nodup_flatten_groups : (groups stageOf numStages).flatten.Nodup := by
  rw [List.Nodup, List.pairwise_flatten, groups, List.pairwise_map]
  refine ⟨fun l hl => ?_, List.pairwise_lt_range.imp fun hlt => ?_⟩
  · obtain ⟨t, _, rfl⟩ := List.mem_map.1 hl
    exact (ascending_group stageOf t).imp Nat.ne_of_lt
  · rintro e hs d ht rfl
    rw [mem_group] at hs ht
    rw [hs, Option.some.injEq] at ht
    omega

theorem mem_flatten_groups (bounded : ∀ t ∈ stageOf, t < numStages) {e : Nat} :
    e ∈ (groups stageOf numStages).flatten ↔ e < stageOf.size := by
  simp only [groups, List.mem_flatten, List.mem_map, List.mem_range]
  constructor
  · rintro ⟨_, ⟨t, _, rfl⟩, he⟩
    exact (Array.getElem?_eq_some_iff.1 ((mem_group stageOf).1 he)).1
  · intro he
    exact ⟨_, ⟨stageOf[e], bounded _ (Array.getElem_mem he), rfl⟩,
      (mem_group stageOf).2 (Array.getElem?_eq_getElem he)⟩

theorem length_flatten_groups (bounded : ∀ t ∈ stageOf, t < numStages) :
    (groups stageOf numStages).flatten.length = stageOf.size := by
  have perm : (groups stageOf numStages).flatten.Perm (List.range stageOf.size) :=
    (List.perm_ext_iff_of_nodup nodup_flatten_groups List.nodup_range).2 fun e => by
      rw [mem_flatten_groups bounded, List.mem_range]
  rw [perm.length_eq, List.length_range]

/-- Every internal number is a place of a stage. -/
theorem exists_group_of_lt (bounded : ∀ t ∈ stageOf, t < numStages) {i : Nat} (h : i < stageOf.size) :
    ∃ t p e, t < numStages ∧ (group stageOf t)[p]? = some e ∧ i = offset stageOf numStages t + p := by
  obtain ⟨t, p, part, ht, hp, hi⟩ := exists_of_lt_length_flatten _ _ (length_flatten_groups bounded ▸ h)
  have inside : t < numStages := by simpa [groups] using (List.getElem?_eq_some_iff.1 ht).1
  obtain rfl : group stageOf t = part := by
    rw [getElem?_groups stageOf numStages inside] at ht
    exact Option.some.inj ht
  exact ⟨t, p, _, inside, List.getElem?_eq_getElem hp, hi⟩

end Groups

/-! ## The first pass -/

theorem foldlM_countIndex (axis : Axis) (numStages : Nat) : ∀ (items : List (Nat × Nat)) (counts : Array Nat),
    items.foldlM (countIndex axis numStages) counts =
      match items.find? fun p => numStages ≤ p.1 with
      | some (stage, index) => .error (.stageOutOfRange axis index stage numStages)
      | none => .ok (items.foldl (fun counts p => counts.modify p.1 (· + 1)) counts)
  | [], _ => rfl
  | (stage, index) :: items, counts => by
    rw [List.foldlM_cons, countIndex]
    by_cases beyond : numStages ≤ stage
    · rw [if_pos beyond, List.find?_cons_of_pos (by simpa using beyond)]
      rfl
    · rw [if_neg beyond, List.find?_cons_of_neg (by simpa using beyond)]
      exact foldlM_countIndex axis numStages items _

/-- Counting adds the length of its bucket to the count of every stage. -/
theorem getElem?_foldl_modify (t : Nat) : ∀ (items : List (Nat × Nat)) (counts : Array Nat),
    (items.foldl (fun counts p => counts.modify p.1 (· + 1)) counts)[t]? =
      counts[t]?.map (· + (itemsAt t items).length)
  | [], counts => by cases h : counts[t]? <;> simp [h, itemsAt]
  | (stage, index) :: items, counts => by
    rw [List.foldl_cons, getElem?_foldl_modify t items, Array.getElem?_modify, itemsAt_cons]
    by_cases own : stage = t
    · cases counts[t]? <;> simp [own]
      omega
    · simp [own]

/-- How many indices each stage has. -/
def widths (stageOf : Array Nat) (numStages : Nat) : Array Nat :=
  ((groups stageOf numStages).map List.length).toArray

theorem getElem?_widths (stageOf : Array Nat) {numStages stage : Nat} (h : stage < numStages) :
    (widths stageOf numStages)[stage]? = some (group stageOf stage).length := by
  simp [widths, groups, h]

/-- A stage starts behind the indices of the stages in front of it. -/
theorem getElem?_runningSums_widths {stageOf : Array Nat} {numStages stage : Nat} (h : stage ≤ numStages) :
    (runningSums 0 (widths stageOf numStages).toList)[stage]? = some (offset stageOf numStages stage) := by
  rw [widths, runningSums_getElem? 0 _ _ (by simpa [groups] using h), Nat.zero_add, offset]

/-- **The first pass counts the indices of each stage**, or stops at the first index without one. -/
theorem tally_eq (axis : Axis) (stageOf : Array Nat) (numStages : Nat) :
    tally axis stageOf numStages =
      match stageOf.toList.zipIdx.find? fun p => numStages ≤ p.1 with
      | some (stage, index) => .error (.stageOutOfRange axis index stage numStages)
      | none => .ok (widths stageOf numStages) := by
  have counted : stageOf.toList.zipIdx.foldl (fun counts p => counts.modify p.1 (· + 1))
      (Array.replicate numStages 0) = widths stageOf numStages := by
    refine Array.ext_getElem? fun t => ?_
    rw [getElem?_foldl_modify, Array.getElem?_replicate]
    by_cases h : t < numStages
    · rw [getElem?_widths stageOf h, if_pos h, Option.map_some, Nat.zero_add, group]
    · simp [widths, groups, h]
  rw [tally, foldlM_countIndex, counted]

/-! ## The second pass -/

/-- Where the second pass stands when the indices `seen` have been placed. -/
structure Placed (stageOf : Array Nat) (numStages : Nat) (seen : List (Nat × Nat)) (p : Placement) : Prop where
  size_toInternal : p.toInternal.size = stageOf.size
  size_toExternal : p.toExternal.size = stageOf.size
  next : ∀ t : Nat, t < numStages → p.next[t]? = some (offset stageOf numStages t + (itemsAt t seen).length)
  toInternal : ∀ t r e : Nat, t < numStages → (itemsAt t seen)[r]? = some e →
    p.toInternal[e]? = some (offset stageOf numStages t + r)
  toExternal : ∀ t r e : Nat, t < numStages → (itemsAt t seen)[r]? = some e →
    p.toExternal[offset stageOf numStages t + r]? = some e

section SecondPass

variable {stageOf : Array Nat} {numStages : Nat} (bounded : ∀ t ∈ stageOf, t < numStages)

/-- What has been seen of a stage is the front of its group. -/
theorem getElem?_group_of_seen {seen later : List (Nat × Nat)} (all : seen ++ later = stageOf.toList.zipIdx)
    {t r e : Nat} (h : (itemsAt t seen)[r]? = some e) : (group stageOf t)[r]? = some e := by
  rw [group, ← all, itemsAt, List.filterMap_append]
  exact (List.getElem?_append_left (List.getElem?_eq_some_iff.1 h).1).trans h

theorem placed_start : Placed stageOf numStages []
    (.start (runningSums 0 (widths stageOf numStages).toList).toArray numStages stageOf.size) where
  size_toInternal := Array.size_replicate
  size_toExternal := Array.size_replicate
  next := fun t ht => by
    have start : (runningSums 0 (widths stageOf numStages).toList)[t]? = some (offset stageOf numStages t) :=
      getElem?_runningSums_widths (Nat.le_of_lt ht)
    simpa [Placement.start, Array.take, Array.getElem?_extract, ht, itemsAt] using start
  toInternal := fun t r e _ h => by cases h
  toExternal := fun t r e _ h => by cases h

include bounded

/-- **The next index takes the number under the cursor of its stage**, and no number that was given before. -/
theorem Placed.put {seen later : List (Nat × Nat)} {stage external : Nat} {p : Placement}
    (placed : Placed stageOf numStages seen p)
    (all : seen ++ (stage, external) :: later = stageOf.toList.zipIdx) :
    Placed stageOf numStages (seen ++ [(stage, external)]) (p.put (stage, external)) := by
  have item : (stage, external) ∈ stageOf.toList.zipIdx := by simp [← all]
  have owned : stageOf[external]? = some stage := by simpa using List.mem_zipIdx_iff_getElem?.1 item
  have ht : stage < numStages := bounded stage (Array.mem_of_getElem? owned)
  have fresh : ∀ {t r e : Nat}, (itemsAt t seen)[r]? = some e → e ≠ external := fun h => by
    have order := all ▸ pairwise_zipIdx stageOf.toList
    exact Nat.ne_of_lt ((List.pairwise_append.1 order).2.2 _ (mem_itemsAt.1 (List.mem_of_getElem? h)) _
      (List.mem_cons_self ..))
  have cursor : p.next.getD stage 0 = offset stageOf numStages stage + (itemsAt stage seen).length := by
    rw [Array.getD_eq_getD_getElem?, placed.next stage ht, Option.getD_some]
  -- the number under the cursor belongs to the stage, so that no other stage has given it away
  have seenToo : seen ++ [(stage, external)] ++ later = stageOf.toList.zipIdx := by rw [List.append_assoc]; exact all
  have own : (group stageOf stage)[(itemsAt stage seen).length]? = some external :=
    getElem?_group_of_seen seenToo (getElem?_itemsAt_concat.2 (.inr ⟨rfl, rfl, rfl⟩))
  have inside : offset stageOf numStages stage + (itemsAt stage seen).length < p.toExternal.size := by
    rw [placed.size_toExternal, ← length_flatten_groups bounded]
    exact (List.getElem?_eq_some_iff.1 (getElem?_flatten_groups stageOf numStages ht own)).1
  have free : ∀ {t r e : Nat}, t < numStages → (itemsAt t seen)[r]? = some e →
      offset stageOf numStages stage + (itemsAt stage seen).length ≠ offset stageOf numStages t + r :=
    fun {t r e} hu h same => by
      obtain ⟨rfl, rfl⟩ := eq_of_offset_add_eq stageOf numStages ht hu (List.getElem?_eq_some_iff.1 own).1
        (List.getElem?_eq_some_iff.1 (getElem?_group_of_seen all h)).1 same
      exact Nat.lt_irrefl _ (List.getElem?_eq_some_iff.1 h).1
  refine ⟨?_, ?_, fun t hu => ?_, fun t r e hu h => ?_, fun t r e hu h => ?_⟩
  · rw [Placement.put, Array.size_setIfInBounds, placed.size_toInternal]
  · rw [Placement.put, Array.size_setIfInBounds, placed.size_toExternal]
  · rw [Placement.put, Array.getElem?_modify, placed.next t hu, itemsAt_concat]
    by_cases same : stage = t <;> simp [same, Nat.add_assoc]
  · simp only [Placement.put, cursor]
    rcases getElem?_itemsAt_concat.1 h with h | ⟨rfl, rfl, rfl⟩
    · rw [Array.getElem?_setIfInBounds_ne (fresh h).symm, placed.toInternal t r e hu h]
    · refine Array.getElem?_setIfInBounds_self_of_lt ?_
      rw [placed.size_toInternal]
      exact (Array.getElem?_eq_some_iff.1 owned).1
  · simp only [Placement.put, cursor]
    rcases getElem?_itemsAt_concat.1 h with h | ⟨rfl, rfl, rfl⟩
    · rw [Array.getElem?_setIfInBounds_ne (free hu h), placed.toExternal t r e hu h]
    · exact Array.getElem?_setIfInBounds_self_of_lt inside

/-- **All of the indices are placed.** -/
theorem placed_foldl : ∀ {seen later : List (Nat × Nat)} {p : Placement}, Placed stageOf numStages seen p →
    seen ++ later = stageOf.toList.zipIdx →
    Placed stageOf numStages stageOf.toList.zipIdx (later.foldl Placement.put p)
  | seen, [], p, placed, all => by
    rw [← all, List.append_nil]
    exact placed
  | seen, (stage, external) :: later, p, placed, all => by
    have rest : seen ++ [(stage, external)] ++ later = stageOf.toList.zipIdx := by rw [List.append_assoc]; exact all
    rw [List.foldl_cons]
    exact placed_foldl (placed.put bounded all) rest

/-- **The second pass places every index behind the start of its stage**, in external order. -/
theorem placed_ofStarts : Placed stageOf numStages stageOf.toList.zipIdx
    (.ofStarts (runningSums 0 (widths stageOf numStages).toList).toArray numStages stageOf) :=
  placed_foldl bounded placed_start (List.nil_append _)

end SecondPass

/-! ## The lay-out -/

section LayOut

variable (axis : Axis) (stageOf : Array Nat) (numStages : Nat)

/-- What numbering an axis leads to. -/
def layOut : Numbering := ofCounts axis stageOf (widths stageOf numStages)

theorem numStages_layOut : (layOut axis stageOf numStages).numStages = numStages := by
  simp [Numbering.numStages, layOut, ofCounts, widths, groups]

theorem first_layOut {stage : Nat} (h : stage ≤ numStages) :
    (layOut axis stageOf numStages).first stage = offset stageOf numStages stage := by
  rw [first, Array.getD_eq_getD_getElem?, layOut, ofCounts, List.getElem?_toArray, getElem?_runningSums_widths h,
    Option.getD_some]

theorem first_zero_layOut : (layOut axis stageOf numStages).first 0 = 0 := by
  rw [first_layOut axis stageOf numStages (Nat.zero_le _)]
  rfl

theorem width_layOut {stage : Nat} (h : stage < numStages) :
    (layOut axis stageOf numStages).width stage = (group stageOf stage).length := by
  rw [width, Array.getD_eq_getD_getElem?, layOut, ofCounts, getElem?_widths stageOf h, Option.getD_some]

theorem first_succ_layOut {t : Nat} (h : t < numStages) :
    (layOut axis stageOf numStages).first (t + 1) =
      (layOut axis stageOf numStages).first t + (layOut axis stageOf numStages).width t := by
  rw [first_layOut axis stageOf numStages h, first_layOut axis stageOf numStages (Nat.le_of_lt h),
    width_layOut axis stageOf numStages h, offset, length_flatten_take_succ _ _ _ (getElem?_groups stageOf numStages h),
    offset]

variable {stageOf numStages} (bounded : ∀ t ∈ stageOf, t < numStages)
include bounded

theorem placed_layOut : Placed stageOf numStages stageOf.toList.zipIdx
    (.ofStarts (layOut axis stageOf numStages).starts (widths stageOf numStages).size stageOf) := by
  rw [show (widths stageOf numStages).size = numStages from numStages_layOut axis stageOf numStages]
  exact placed_ofStarts bounded

theorem size_layOut : (layOut axis stageOf numStages).size = stageOf.size := (placed_layOut axis bounded).size_toInternal

theorem size_toExternal_layOut : (layOut axis stageOf numStages).toExternal.size = stageOf.size :=
  (placed_layOut axis bounded).size_toExternal

/-- The indices of a stage stand behind its start, ascending. -/
theorem origin_layOut {t p e : Nat} (ht : t < numStages) (he : (group stageOf t)[p]? = some e) :
    (layOut axis stageOf numStages).origin (offset stageOf numStages t + p) = e := by
  rw [origin, Array.getD_eq_getD_getElem?]
  exact congrArg (Option.getD · 0) ((placed_layOut axis bounded).toExternal t p e ht he)

theorem place_layOut {t p e : Nat} (ht : t < numStages) (he : (group stageOf t)[p]? = some e) :
    (layOut axis stageOf numStages).place e = offset stageOf numStages t + p := by
  rw [place, Array.getD_eq_getD_getElem?]
  exact congrArg (Option.getD · 0) ((placed_layOut axis bounded).toInternal t p e ht he)

/-- **The internal order is the groups of the stages, laid end to end.** -/
theorem toExternal_layOut :
    (layOut axis stageOf numStages).toExternal.toList = (groups stageOf numStages).flatten := by
  have size := size_toExternal_layOut axis bounded
  refine List.ext_getElem? fun i => ?_
  rw [Array.getElem?_toList]
  by_cases h : i < stageOf.size
  · obtain ⟨t, p, e, ht, he, rfl⟩ := exists_group_of_lt bounded h
    rw [getElem?_flatten_groups stageOf numStages ht he]
    exact (placed_layOut axis bounded).toExternal t p e ht he
  · rw [Array.getElem?_eq_none (by omega), List.getElem?_eq_none (by rw [length_flatten_groups bounded]; omega)]

theorem origin_lt_layOut {i : Nat} (h : i < stageOf.size) : (layOut axis stageOf numStages).origin i < stageOf.size := by
  obtain ⟨t, p, e, ht, he, rfl⟩ := exists_group_of_lt bounded h
  rw [origin_layOut axis bounded ht he]
  exact (Array.getElem?_eq_some_iff.1 ((mem_group stageOf).1 (List.mem_of_getElem? he))).1

/-- The external number of an internal one leads back to it. -/
theorem place_origin_layOut {i : Nat} (h : i < stageOf.size) :
    (layOut axis stageOf numStages).place ((layOut axis stageOf numStages).origin i) = i := by
  obtain ⟨t, p, e, ht, he, rfl⟩ := exists_group_of_lt bounded h
  rw [origin_layOut axis bounded ht he, place_layOut axis bounded ht he]

theorem first_last_layOut : (layOut axis stageOf numStages).first numStages = stageOf.size := by
  rw [first_layOut axis stageOf numStages (Nat.le_refl _), offset, List.take_of_length_le (by simp [groups]),
    length_flatten_groups bounded]

theorem member_layOut {t p : Nat} (h : t < numStages) (hp : p < (group stageOf t).length) :
    (layOut axis stageOf numStages).member t p = (group stageOf t)[p] := by
  rw [member, first_layOut axis stageOf numStages (Nat.le_of_lt h)]
  exact origin_layOut axis bounded h (List.getElem?_eq_getElem hp)

theorem place_member_layOut {t p : Nat} (h : t < numStages) (hp : p < (group stageOf t).length) :
    (layOut axis stageOf numStages).place ((layOut axis stageOf numStages).member t p) =
      (layOut axis stageOf numStages).first t + p := by
  rw [member_layOut axis bounded h hp, first_layOut axis stageOf numStages (Nat.le_of_lt h)]
  exact place_layOut axis bounded h (List.getElem?_eq_getElem hp)

theorem exists_member_layOut {e t : Nat} (h : stageOf[e]? = some t) :
    ∃ p, p < (group stageOf t).length ∧ (layOut axis stageOf numStages).member t p = e := by
  obtain ⟨he, rfl⟩ := Array.getElem?_eq_some_iff.1 h
  obtain ⟨p, hp, hpe⟩ := List.mem_iff_getElem.1 ((mem_group stageOf).2 h)
  exact ⟨p, hp, by rw [member_layOut axis bounded (bounded _ (Array.getElem_mem he)) hp, hpe]⟩

/-- **A lay-out is coherent**, if every index is given a stage that exists. -/
theorem coherent_layOut : Coherent (layOut axis stageOf numStages) := by
  have stages := numStages_layOut axis stageOf numStages
  have lt : ∀ {e t : Nat}, stageOf[e]? = some t → t < numStages := fun h => bounded _ (Array.mem_of_getElem? h)
  exact {
    size_stageOf := (size_layOut axis bounded).symm
    size_toExternal := by rw [size_toExternal_layOut axis bounded, size_layOut axis bounded]
    stage_lt := fun h => by rw [stages]; exact lt h
    size_starts := by simp [layOut, ofCounts, Numbering.numStages]
    first_succ := fun h => first_succ_layOut axis stageOf numStages (stages ▸ h)
    first_last := by rw [stages, first_last_layOut axis bounded, size_layOut axis bounded]
    first_le := fun h => by
      obtain ⟨p, hp, rfl⟩ := exists_member_layOut axis bounded h
      rw [place_member_layOut axis bounded (lt h) hp]
      exact Nat.le_add_right ..
    localPlace_lt := fun h => by
      obtain ⟨p, hp, rfl⟩ := exists_member_layOut axis bounded h
      rw [localPlace, place_member_layOut axis bounded (lt h) hp, Nat.add_sub_cancel_left,
        width_layOut axis stageOf numStages (lt h)]
      exact hp
    origin_place := fun h => by
      have h := size_layOut axis bounded ▸ h
      obtain ⟨p, hp, he⟩ := exists_member_layOut axis bounded (Array.getElem?_eq_getElem h)
      rw [← he, place_member_layOut axis bounded (lt (Array.getElem?_eq_getElem h)) hp]
      rfl
    place_origin := fun h => place_origin_layOut axis bounded (size_layOut axis bounded ▸ h)
    stageOf_member := fun h hp => by
      rw [stages] at h
      rw [width_layOut axis stageOf numStages h] at hp
      rw [member_layOut axis bounded h hp]
      exact (mem_group stageOf).1 (List.getElem_mem hp)
    localPlace_member := fun h hp => by
      rw [stages] at h
      rw [width_layOut axis stageOf numStages h] at hp
      rw [localPlace, place_member_layOut axis bounded h hp, Nat.add_sub_cancel_left] }

end LayOut

theorem ofStages_eq (axis : Axis) (stageOf : Array Nat) (numStages : Nat) :
    ofStages axis stageOf numStages =
      match stageOf.toList.zipIdx.find? fun p => numStages ≤ p.1 with
      | some (stage, index) => .error (.stageOutOfRange axis index stage numStages)
      | none => .ok (layOut axis stageOf numStages) := by
  rw [ofStages, tally_eq]
  cases stageOf.toList.zipIdx.find? fun p => numStages ≤ p.1 <;> rfl

/-- **Numbering an axis succeeds exactly when every index has a stage that exists.** -/
theorem ofStages_eq_ok {axis : Axis} {stageOf : Array Nat} {numStages : Nat} {n : Numbering} :
    ofStages axis stageOf numStages = .ok n ↔
      (∀ t ∈ stageOf, t < numStages) ∧ n = layOut axis stageOf numStages := by
  rw [ofStages_eq]
  split
  · rename_i stage index found
    simp only [reduceCtorEq, false_iff, not_and]
    intro bounded
    have := bounded stage (Array.mem_toList_iff.1 (List.fst_mem_of_mem_zipIdx (List.mem_of_find?_eq_some found)))
    have : numStages ≤ stage := by simpa using List.find?_some found
    omega
  · rename_i none
    simp only [Except.ok.injEq, eq_comm, iff_and_self]
    rintro - t ht
    obtain ⟨e, he⟩ := Array.getElem?_of_mem ht
    have := List.find?_eq_none.1 none (t, e) (List.mem_zipIdx_iff_getElem?.2 (by simpa using he))
    simpa using this

theorem coherent_of_ofStages {axis : Axis} {stageOf : Array Nat} {numStages : Nat} {n : Numbering}
    (h : ofStages axis stageOf numStages = .ok n) : n.Coherent := by
  obtain ⟨bounded, rfl⟩ := ofStages_eq_ok.1 h
  exact coherent_layOut axis bounded

end Numbering
end Multistage
