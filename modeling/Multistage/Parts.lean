/-!
# One array cut into consecutive parts

Items are only ever appended.  Closing a part records where it ends, which is where the next one starts, so one array
of items and one of starts hold any number of parts, empty ones included, and nothing is moved.

`part` and `pending` are the view: what lies between two starts, and what has been appended since the last
one.  Each operation is pinned down by what it does to these two.
-/
namespace Multistage

structure Parts (α : Type) where
  items : Array α
  /-- Where each closed part starts, and where the last one ends. -/
  starts : Array Nat
  first : starts[0]? = some 0
  sorted : starts.toList.Pairwise (· ≤ ·)
  bounded : ∀ s ∈ starts, s ≤ items.size
deriving DecidableEq

namespace Parts

variable {α : Type}

def empty : Parts α where
  items := #[]
  starts := #[0]
  first := rfl
  sorted := by simp
  bounded := by simp

def count (p : Parts α) : Nat := p.starts.size - 1

def start (p : Parts α) (i : Nat) : Nat := p.starts.getD i 0

def part (p : Parts α) (i : Nat) : List α := (p.items.extract (p.start i) (p.start (i + 1))).toList

/-- The items that belong to no closed part yet. -/
def pending (p : Parts α) : List α := (p.items.extract (p.start p.count) p.items.size).toList

def push (p : Parts α) (x : α) : Parts α where
  items := p.items.push x
  starts := p.starts
  first := p.first
  sorted := p.sorted
  bounded s hs := by have := p.bounded s hs; simp; omega

/-- Ends a part here; it holds what was pending. -/
def close (p : Parts α) : Parts α where
  items := p.items
  starts := p.starts.push p.items.size
  first := by
    obtain ⟨h, hs⟩ := Array.getElem?_eq_some_iff.1 p.first
    rw [Array.getElem?_push_lt h, hs]
  sorted := by
    rw [Array.toList_push, List.pairwise_append]
    exact ⟨p.sorted, by simp, fun s hs t ht => by
      rw [List.mem_singleton.1 ht]; exact p.bounded s (Array.mem_toList_iff.1 hs)⟩
  bounded s hs := by
    rcases Array.mem_push.1 hs with hs | rfl
    · exact p.bounded s hs
    · exact Nat.le_refl _

theorem size_starts_pos (p : Parts α) : 0 < p.starts.size := (Array.getElem?_eq_some_iff.1 p.first).1

theorem size_starts (p : Parts α) : p.starts.size = p.count + 1 := by
  have := p.size_starts_pos; unfold count; omega

theorem start_zero (p : Parts α) : p.start 0 = 0 := by simp [start, Array.getD_eq_getD_getElem?, p.first]

theorem start_le_size (p : Parts α) (i : Nat) : p.start i ≤ p.items.size := by
  rw [start, Array.getD_eq_getD_getElem?]
  cases h : p.starts[i]? with
  | none => exact Nat.zero_le _
  | some s => exact p.bounded s (Array.mem_of_getElem? h)

theorem start_mono (p : Parts α) {i j : Nat} (hij : i ≤ j) (hj : j ≤ p.count) : p.start i ≤ p.start j := by
  have hs := p.size_starts
  rcases Nat.lt_or_eq_of_le hij with h | rfl
  · have := List.pairwise_iff_getElem.1 p.sorted i j (by simp; omega) (by simp; omega) h
    simpa [start, Array.getD_eq_getD_getElem?, show i < p.starts.size by omega,
      show j < p.starts.size by omega] using this
  · exact Nat.le_refl _

@[simp] theorem count_empty : (empty : Parts α).count = 0 := rfl

@[simp] theorem pending_empty : (empty : Parts α).pending = [] := rfl

@[simp] theorem count_push (p : Parts α) (x : α) : (p.push x).count = p.count := rfl

@[simp] theorem start_push (p : Parts α) (x : α) (i : Nat) : (p.push x).start i = p.start i := rfl

@[simp] theorem part_push (p : Parts α) (x : α) (i : Nat) : (p.push x).part i = p.part i := by
  rw [part, part, start_push, start_push]
  exact congrArg _ (Array.extract_push_of_le (p.start_le_size _))

@[simp] theorem pending_push (p : Parts α) (x : α) : (p.push x).pending = p.pending ++ [x] := by
  have h := p.start_le_size p.count
  have items : (p.push x).items = p.items.push x := rfl
  rw [pending, pending, count_push, start_push, items, Array.size_push, Array.extract_push,
    if_neg (by omega), if_pos h, Array.toList_push]

@[simp] theorem count_close (p : Parts α) : p.close.count = p.count + 1 := by
  have := p.size_starts_pos
  simp only [count, close, Array.size_push]
  omega

theorem start_close (p : Parts α) (i : Nat) :
    p.close.start i = if i = p.count + 1 then p.items.size else p.start i := by
  simp only [start, close, Array.getD_eq_getD_getElem?, Array.getElem?_push, p.size_starts]
  split <;> rfl

@[simp] theorem pending_close (p : Parts α) : p.close.pending = [] := by
  rw [pending, count_close, start_close, if_pos rfl]
  simp [close]

/-- **Closing makes the pending items a part and leaves the other parts alone.** -/
theorem part_close (p : Parts α) {i : Nat} (h : i ≤ p.count) :
    p.close.part i = if i = p.count then p.pending else p.part i := by
  rw [part, start_close, start_close, if_neg (by omega)]
  by_cases hi : i = p.count
  · subst hi; simp [pending, close]
  · simp only [hi, show i + 1 ≠ p.count + 1 by omega, if_false]
    rfl

/-- Ends parts here until there are so many; the first of them takes what was pending. -/
def closeUntil (p : Parts α) (n : Nat) : Parts α := Nat.repeat close (n - p.count) p

theorem count_repeat_close (p : Parts α) : ∀ k, (Nat.repeat close k p).count = p.count + k
  | 0 => rfl
  | k + 1 => by
    show (close (Nat.repeat close k p)).count = _
    rw [count_close, count_repeat_close p k]; omega

theorem count_closeUntil (p : Parts α) (n : Nat) : (p.closeUntil n).count = max p.count n := by
  rw [closeUntil, count_repeat_close]; omega

theorem pending_repeat_close {p : Parts α} (h : p.pending = []) : ∀ k, (Nat.repeat close k p).pending = []
  | 0 => h
  | k + 1 => pending_close (Nat.repeat close k p)

theorem pending_closeUntil {p : Parts α} (h : p.pending = []) (n : Nat) : (p.closeUntil n).pending = [] :=
  pending_repeat_close h _

def pushAll (p : Parts α) (xs : List α) : Parts α := xs.foldl push p

@[simp] theorem count_pushAll (p : Parts α) (xs : List α) : (p.pushAll xs).count = p.count := by
  induction xs generalizing p with
  | nil => rfl
  | cons x xs ih => exact ih (p.push x)

end Parts
end Multistage
