import Multistage.Proofs.Arena.Slots
/-!
# The catalog as lists of handles

The catalog is seen through `listed`, the handles under each key.  Enrolling and striking change one list, and only
they touch the catalog; a key that is in the catalog has somebody listed.
-/
namespace Multistage
namespace Arena

open Std (LawfulEqOrd.compare_eq_iff_eq)

/-- The handles listed under a key. -/
def listed (a : Arena) (key : UInt64) : List NodeId := a.catalog.getD key []

theorem listed_enroll (a : Arena) (key : UInt64) (id : NodeId) (k : UInt64) :
    (a.enroll key id).listed k = if key = k then a.listed key ++ [id] else a.listed k := by
  rw [listed, enroll, Std.TreeMap.getD_insert]
  simp only [LawfulEqOrd.compare_eq_iff_eq]
  rfl

theorem listed_strike (a : Arena) (key : UInt64) (id : NodeId) (k : UInt64) :
    (a.strike key id).listed k = if key = k then (a.listed key).filter (· ≠ id) else a.listed k := by
  unfold strike
  split
  · rename_i nobody
    rw [listed, Std.TreeMap.getD_erase]
    simp only [LawfulEqOrd.compare_eq_iff_eq]
    rw [listed, nobody]
    rfl
  · rw [listed, Std.TreeMap.getD_insert]
    simp only [LawfulEqOrd.compare_eq_iff_eq]
    rfl

theorem listed_insert (a : Arena) (o : Occupant) (key : UInt64) : (a.insert o).2.listed key = a.listed key := by
  unfold insert
  split <;> rfl

/-! ## Keys that are there -/

/-- A key is in the catalog only if somebody is listed under it. -/
def NoEmptyList (a : Arena) : Prop := ∀ key ∈ a.catalog, a.listed key ≠ []

theorem noEmptyList_enroll {a : Arena} (h : a.NoEmptyList) (key : UInt64) (id : NodeId) :
    (a.enroll key id).NoEmptyList := by
  intro k hk
  rw [listed_enroll]
  split
  · simp
  · rename_i other
    rw [enroll, Std.TreeMap.mem_insert, LawfulEqOrd.compare_eq_iff_eq] at hk
    exact h k (hk.resolve_left other)

theorem noEmptyList_strike {a : Arena} (h : a.NoEmptyList) (key : UInt64) (id : NodeId) :
    (a.strike key id).NoEmptyList := by
  intro k hk
  rw [listed_strike]
  unfold strike at hk
  split at hk
  · rw [Std.TreeMap.mem_erase, ne_eq, LawfulEqOrd.compare_eq_iff_eq] at hk
    rw [if_neg hk.1]
    exact h k hk.2
  · rename_i left
    rw [Std.TreeMap.mem_insert, LawfulEqOrd.compare_eq_iff_eq] at hk
    by_cases same : key = k
    · rw [if_pos same]
      exact left
    · rw [if_neg same]
      exact h k (hk.resolve_left same)

end Arena
end Multistage
