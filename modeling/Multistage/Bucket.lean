/-!
# Sorting into buckets, and running sums

A list of pairs of a number and an item is dealt out to one list per number, order kept (`buckets_getElem?`).
Transposing and slicing are both this operation, and the internal order of an axis is what it deals out, read one
bucket after another.  Laid end to end, the buckets start at the running sums of their lengths.
-/
namespace Multistage

variable {α : Type}

/-- The items of each number below `n`, in their order. -/
def buckets (n : Nat) (items : List (Nat × α)) : Array (List α) :=
  items.foldr (fun item a => a.modify item.1 (item.2 :: ·)) (Array.replicate n [])

def itemsAt (k : Nat) (items : List (Nat × α)) : List α :=
  items.filterMap fun item => if item.1 = k then some item.2 else none

theorem mem_itemsAt {k : Nat} {items : List (Nat × α)} {x : α} :
    x ∈ itemsAt k items ↔ (k, x) ∈ items := by
  simp only [itemsAt, List.mem_filterMap, Option.ite_none_right_eq_some, Option.some.injEq]
  constructor
  · rintro ⟨p, hp, rfl, rfl⟩
    exact hp
  · intro h
    exact ⟨(k, x), h, rfl, rfl⟩

/-- Numbering a list numbers it upwards. -/
theorem pairwise_zipIdx (l : List α) : l.zipIdx.Pairwise (·.2 < ·.2) := by
  have numbers : (l.zipIdx.map Prod.snd).Pairwise (· < ·) := by
    rw [List.zipIdx_map_snd]
    exact List.pairwise_lt_range'
  rwa [List.pairwise_map] at numbers

@[simp] theorem size_buckets (n : Nat) : ∀ items : List (Nat × α), (buckets n items).size = n
  | [] => by simp [buckets]
  | item :: items => by
    have := size_buckets n items
    simpa [buckets] using this

theorem buckets_getElem? (n k : Nat) : ∀ items : List (Nat × α),
    (buckets n items)[k]? = if k < n then some (itemsAt k items) else none
  | [] => by simp [buckets, itemsAt, Array.getElem?_replicate]
  | (j, x) :: items => by
    have step : buckets n ((j, x) :: items) = (buckets n items).modify j (x :: ·) := rfl
    rw [step, Array.getElem?_modify, buckets_getElem? n k items]
    by_cases hj : j = k <;> by_cases hk : k < n <;> simp [itemsAt, hj, hk]

/-- Where parts of the given lengths start when laid end to end, and where the last one ends. -/
def runningSums (start : Nat) : List Nat → List Nat
  | [] => [start]
  | n :: ns => start :: runningSums (start + n) ns

@[simp] theorem length_runningSums : ∀ (start : Nat) (ns : List Nat), (runningSums start ns).length = ns.length + 1
  | _, [] => rfl
  | start, n :: ns => by simp [runningSums, length_runningSums (start + n) ns]

/-- A part starts where the parts in front of it end. -/
theorem runningSums_getElem? : ∀ (start : Nat) (parts : List (List α)) (k : Nat), k ≤ parts.length →
    (runningSums start (parts.map List.length))[k]? = some (start + (parts.take k).flatten.length)
  | start, [], k, h => by
    obtain rfl : k = 0 := by simpa using h
    rfl
  | start, l :: ls, 0, _ => by simp [runningSums]
  | start, l :: ls, k + 1, h => by
    simp only [List.map_cons, runningSums, List.getElem?_cons_succ, List.take_succ_cons, List.flatten_cons,
      List.length_append]
    rw [runningSums_getElem? (start + l.length) ls k (by simpa using h), Nat.add_assoc]

end Multistage
