/-!
# Binary search

`bisect p lo hi` is where a test stops holding in `[lo, hi)`, found by halving.  It needs no array and no
order: `lt_bisect` and `bisect_le` say where it is, for every test that never holds again in `[lo, hi)` after it has
failed.  In an ascending list a number is found by it (`containsAscending`).
-/
namespace Multistage

/-- The first place in `[lo, hi)` where the test fails, or `hi`. -/
def bisect (p : Nat → Bool) (lo hi : Nat) : Nat :=
  if lo < hi then
    let mid := (lo + hi) / 2
    if p mid then bisect p (mid + 1) hi else bisect p lo mid
  else lo
termination_by hi - lo

/-- Below the place the test holds. -/
theorem lt_bisect {p : Nat → Bool} {lo hi i : Nat} (mono : ∀ i j, i ≤ j → j < hi → p j → p i) (hlo : lo ≤ i)
    (hlt : i < bisect p lo hi) : p i := by
  fun_induction bisect p lo hi with
  | case1 lo hi _ mid hp ih =>
    rcases Nat.lt_or_ge mid i with h | h
    · exact ih mono h hlt
    · exact mono _ _ h (by omega) hp
  | case2 lo hi _ mid hp ih => exact ih (fun i j hij hj => mono i j hij (by omega)) hlo hlt
  | case3 lo hi _ => omega

/-- From the place on the test fails. -/
theorem bisect_le {p : Nat → Bool} {lo hi i : Nat} (mono : ∀ i j, i ≤ j → j < hi → p j → p i)
    (h : bisect p lo hi ≤ i) (hhi : i < hi) : p i = false := by
  fun_induction bisect p lo hi with
  | case1 lo hi hlt mid hp ih => exact ih mono h hhi
  | case2 lo hi hlt mid hp ih =>
    rcases Nat.lt_or_ge i mid with hm | hm
    · exact ih (fun i j hij hj => mono i j hij (by omega)) h hm
    · exact Bool.eq_false_iff.2 fun hpi => hp (mono _ _ hm hhi hpi)
  | case3 lo hi hlt => omega

/-- Whether an ascending list has a number, looked up where the smaller ones end. -/
def containsAscending (l : List Nat) (x : Nat) : Bool :=
  l[bisect (fun k => l.getD k 0 < x) 0 l.length]? = some x

theorem getD_lt_getD {l : List Nat} (ascending : l.Pairwise (· < ·)) {i j : Nat} (hij : i < j) (hj : j < l.length) :
    l.getD i 0 < l.getD j 0 := by
  rw [← List.getElem_eq_getD (h := Nat.lt_trans hij hj), ← List.getElem_eq_getD (h := hj)]
  exact List.pairwise_iff_getElem.1 ascending i j _ hj hij

theorem containsAscending_eq_true {l : List Nat} (ascending : l.Pairwise (· < ·)) {x : Nat} :
    containsAscending l x = true ↔ x ∈ l := by
  have mono : ∀ i j, i ≤ j → j < l.length → decide (l.getD j 0 < x) → decide (l.getD i 0 < x) := by
    intro i j hij hj below
    rcases Nat.lt_or_eq_of_le hij with lt | rfl
    · exact decide_eq_true (Nat.lt_trans (getD_lt_getD ascending lt hj) (of_decide_eq_true below))
    · exact below
  rw [containsAscending, decide_eq_true_eq]
  refine ⟨List.mem_of_getElem?, fun member => ?_⟩
  obtain ⟨k, hk, here⟩ := List.mem_iff_getElem.1 member
  have value : l.getD k 0 = x := (List.getElem_eq_getD 0).symm.trans here
  -- the search ends at `k`: the numbers in front of it are smaller, and the one at it is not
  have notAfter : bisect (fun k => l.getD k 0 < x) 0 l.length ≤ k := Nat.le_of_not_lt fun after =>
    Nat.ne_of_lt (of_decide_eq_true (lt_bisect mono (Nat.zero_le k) after)) value
  have notBefore : k ≤ bisect (fun k => l.getD k 0 < x) 0 l.length := Nat.le_of_not_lt fun before =>
    of_decide_eq_false (bisect_le mono (Nat.le_refl _) (Nat.lt_trans before hk))
      (Nat.lt_of_lt_of_eq (getD_lt_getD ascending before hk) value)
  rw [Nat.le_antisymm notAfter notBefore, List.getElem?_eq_getElem hk, here]

end Multistage
