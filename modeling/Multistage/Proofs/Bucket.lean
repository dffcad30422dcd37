import Multistage.Bucket
/-!
# What buckets hold, and where they stand when laid end to end

The bucket of a number follows the list that is dealt out: an item more at either end of the list is an item more at
that end of its bucket.  Laid end to end, the places of the buckets are the places of the whole, each of them once.
-/
namespace Multistage

variable {α : Type}

theorem itemsAt_cons (k j : Nat) (x : α) (items : List (Nat × α)) :
    itemsAt k ((j, x) :: items) = if j = k then x :: itemsAt k items else itemsAt k items := by
  by_cases h : j = k <;> simp [itemsAt, h]

theorem itemsAt_concat (k j : Nat) (x : α) (items : List (Nat × α)) :
    itemsAt k (items ++ [(j, x)]) = itemsAt k items ++ if j = k then [x] else [] := by
  rw [itemsAt, itemsAt, List.filterMap_append]
  by_cases h : j = k <;> simp [h]

/-- What a bucket holds once another item has been dealt out. -/
theorem getElem?_itemsAt_concat {k j r : Nat} {x y : α} {items : List (Nat × α)} :
    (itemsAt k (items ++ [(j, x)]))[r]? = some y ↔
      (itemsAt k items)[r]? = some y ∨ j = k ∧ r = (itemsAt k items).length ∧ x = y := by
  rw [itemsAt_concat, List.getElem?_append]
  by_cases front : r < (itemsAt k items).length
  · have : r ≠ (itemsAt k items).length := by omega
    simp [front, this]
  · rw [if_neg front, List.getElem?_eq_none (Nat.le_of_not_lt front)]
    by_cases own : j = k
    · rw [if_pos own, List.getElem?_singleton]
      by_cases last : r = (itemsAt k items).length
      · simp [last, own]
      · have : r - (itemsAt k items).length ≠ 0 := by omega
        simp [last, this]
    · simp [own]

theorem itemsAt_reverse (k : Nat) (items : List (Nat × α)) : itemsAt k items.reverse = (itemsAt k items).reverse :=
  List.filterMap_reverse

theorem length_itemsAt (k : Nat) : ∀ items : List (Nat × α),
    (itemsAt k items).length = (items.map Prod.fst).count k
  | [] => rfl
  | (j, x) :: items => by
    rw [itemsAt_cons, List.map_cons, List.count_cons, ← length_itemsAt k items]
    by_cases h : j = k <;> simp [h]

theorem toList_buckets (n : Nat) (items : List (Nat × α)) :
    (buckets n items).toList = (List.range n).map (itemsAt · items) := by
  refine List.ext_getElem? fun k => ?_
  rw [Array.getElem?_toList, buckets_getElem?, List.getElem?_map]
  by_cases h : k < n <;> simp [h]

/-- What stands at a place of a part stands that far behind the parts in front of it. -/
theorem getElem?_flatten_add : ∀ (parts : List (List α)) (k p : Nat) (part : List α), parts[k]? = some part →
    p < part.length → parts.flatten[(parts.take k).flatten.length + p]? = part[p]?
  | [], _, _, _, h, _ => by cases h
  | l :: ls, 0, p, part, h, hp => by
    obtain rfl : l = part := by simpa using h
    simp [List.getElem?_append_left hp]
  | l :: ls, k + 1, p, part, h, hp => by
    rw [List.take_succ_cons, List.flatten_cons, List.flatten_cons, List.length_append, Nat.add_assoc,
      List.getElem?_append_right (Nat.le_add_right ..), Nat.add_sub_cancel_left]
    exact getElem?_flatten_add ls k p part h hp

theorem length_flatten_take_succ (parts : List (List α)) (k : Nat) (part : List α) (h : parts[k]? = some part) :
    (parts.take (k + 1)).flatten.length = (parts.take k).flatten.length + part.length := by
  rw [List.take_add_one, h, List.flatten_append, List.length_append]
  simp

/-- Every place of parts laid end to end is a place of one of them. -/
theorem exists_of_lt_length_flatten : ∀ (parts : List (List α)) (i : Nat), i < parts.flatten.length →
    ∃ k p part, parts[k]? = some part ∧ p < part.length ∧ i = (parts.take k).flatten.length + p
  | [], _, h => by cases h
  | l :: ls, i, h => by
    by_cases front : i < l.length
    · exact ⟨0, i, l, rfl, front, by simp⟩
    · rw [List.flatten_cons, List.length_append] at h
      obtain ⟨k, p, part, hk, hp, hi⟩ := exists_of_lt_length_flatten ls (i - l.length) (by omega)
      refine ⟨k + 1, p, part, hk, hp, ?_⟩
      rw [List.take_succ_cons, List.flatten_cons, List.length_append]
      omega

end Multistage
