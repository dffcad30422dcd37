import Mathlib.Data.List.Basic
import Multistage.Proofs.Merge
import Multistage.Proofs.Bucket
/-!
# Sorting writes and collapsing runs

`lastWrites` gathers what is written in a finite map.  The same can be had without one: the writes are sorted by index, those
to one index staying in their order, and of every run of one index the last is kept.  The second way also counts what it passes
over (`collapse_sorted`).

The cells of a matrix are sorted once, by row and column, and swept row by row.  `sweep_sortedCells` says that the sweep
leads to the last writes of each row and comes to the end of the cells.
-/
namespace Multistage

/-- A stable sort keeps the members that are alike in their order. -/
theorem filter_mergeSort {α : Type} {le : α → α → Bool} (trans : ∀ a b c, le a b = true → le b c = true → le a c = true)
    (total : ∀ a b, (le a b || le b a) = true) {p : α → Bool} (alike : ∀ a b, p a = true → p b = true → le a b = true)
    (l : List α) : (l.mergeSort le).filter p = l.filter p := by
  have inOrder : (l.filter p).Pairwise fun a b => le a b = true :=
    List.pairwise_of_forall_mem_list fun a ha b hb => alike a b (List.mem_filter.1 ha).2 (List.mem_filter.1 hb).2
  have kept : (l.filter p).Sublist ((l.mergeSort le).filter p) := by
    have within := (List.sublist_mergeSort trans total inOrder List.filter_sublist).filter p
    simpa using within
  exact (kept.eq_of_length ((l.mergeSort_perm le).filter p).length_eq.symm).symm

section Parts

variable {α β : Type}

/-- The sum of the numbers. -/
def total (l : List Nat) : Nat := l.foldr (· + ·) 0

@[simp] theorem total_nil : total [] = 0 := rfl

@[simp] theorem total_cons (n : Nat) (l : List Nat) : total (n :: l) = n + total l := rfl

@[simp] theorem total_append (k l : List Nat) : total (k ++ l) = total k + total l := by
  induction k with
  | nil => simp
  | cons n k ih => simp [ih, Nat.add_assoc]

theorem total_map_add (f g : α → Nat) (l : List α) :
    total (l.map fun x => f x + g x) = total (l.map f) + total (l.map g) := by
  induction l with
  | nil => rfl
  | cons x l ih =>
    simp only [List.map_cons, total_cons, ih]
    omega

theorem length_flatten_map (f : α → List β) (l : List α) : (l.map f).flatten.length = total (l.map fun x => (f x).length) := by
  induction l with
  | nil => rfl
  | cons x l ih => simp [ih]

/-- One more part has its own members more. -/
theorem length_filter_succ (part : α → Option Nat) (l : List α) (n : Nat) :
    (l.filter fun x => (part x).any (· < n + 1)).length =
      (l.filter fun x => (part x).any (· < n)).length + (l.filter (part · = some n)).length := by
  have before : ∀ x, ((part x).any (· < n) && (part x).any (· < n + 1)) = (part x).any (· < n) := fun x => by
    cases part x with
    | none => rfl
    | some k =>
      rw [Bool.eq_iff_iff, Option.any_some, Option.any_some, Bool.and_eq_true, decide_eq_true_eq, decide_eq_true_eq]
      omega
  have last : ∀ x, (!(part x).any (· < n) && (part x).any (· < n + 1)) = decide (part x = some n) := fun x => by
    cases part x with
    | none => rfl
    | some k =>
      rw [Bool.eq_iff_iff, Option.any_some, Option.any_some, Bool.and_eq_true, Bool.not_eq_true', decide_eq_false_iff_not,
        decide_eq_true_eq, decide_eq_true_eq, Option.some.injEq]
      omega
  rw [List.length_eq_length_filter_add (fun x => (part x).any (· < n)), List.filter_filter, List.filter_filter]
  simp only [before, last]

/-- The members of the first `n` parts. -/
theorem total_filter_part (part : α → Option Nat) (l : List α) : ∀ n : Nat,
    total ((List.range n).map fun i => (l.filter (part · = some i)).length) =
      (l.filter fun x => (part x).any (· < n)).length
  | 0 => by
    symm
    simp
  | n + 1 => by
    rw [List.range_succ, List.map_append, total_append, total_filter_part part l n, length_filter_succ]
    rfl

/-- **Parts that every member is in exactly one of** have all members together. -/
theorem total_parts {part : α → Option Nat} {l : List α} {n : Nat} (inPart : ∀ x ∈ l, ∃ i, part x = some i ∧ i < n) :
    total ((List.range n).map fun i => (l.filter (part · = some i)).length) = l.length := by
  rw [total_filter_part, List.filter_eq_self.2]
  intro x hx
  obtain ⟨i, here, lt⟩ := inPart x hx
  simpa [here] using lt

end Parts

namespace Sparse

/-- The writes by index; those to one index stay in their order. -/
def sorted (writes : List Entry) : List Entry := writes.mergeSort fun d e => decide (d.index ≤ e.index)

/-- The last entry of every run of one index, and the number of entries that were passed over. -/
def collapse : List Entry → List Entry × Nat
  | [] => ([], 0)
  | [e] => ([e], 0)
  | d :: e :: l =>
    if d.index = e.index then ((collapse (e :: l)).1, (collapse (e :: l)).2 + 1)
    else (d :: (collapse (e :: l)).1, (collapse (e :: l)).2)

/-- Nothing is lost: an entry is kept or passed over. -/
theorem length_collapse (l : List Entry) : (collapse l).1.length + (collapse l).2 = l.length := by
  fun_induction collapse l with
  | case1 => rfl
  | case2 e => rfl
  | case3 d e l same ih =>
    simp only [List.length_cons] at ih ⊢
    omega
  | case4 d e l apart ih =>
    simp only [List.length_cons] at ih ⊢
    omega

theorem mem_of_mem_collapse {l : List Entry} {x : Entry} (h : x ∈ (collapse l).1) : x ∈ l := by
  fun_induction collapse l with
  | case1 => exact h
  | case2 e => exact h
  | case3 d e l same ih => exact List.mem_cons_of_mem _ (ih h)
  | case4 d e l apart ih =>
    rcases List.mem_cons.1 h with rfl | later
    · exact List.mem_cons_self ..
    · exact List.mem_cons_of_mem _ (ih later)

/-- The indices of a list go up, or stay. -/
abbrev Climbing (l : List Entry) : Prop := l.Pairwise (·.index ≤ ·.index)

/-- Where the second index is another one, the first does not come again. -/
theorem Climbing.lt_of_ne {d e : Entry} {l : List Entry} (h : Climbing (d :: e :: l)) (apart : d.index ≠ e.index) :
    ∀ x ∈ e :: l, d.index < x.index := by
  obtain ⟨first, rest⟩ := List.pairwise_cons.1 h
  have step : d.index < e.index := Nat.lt_of_le_of_ne (first e (List.mem_cons_self ..)) apart
  intro x hx
  rcases List.mem_cons.1 hx with rfl | later
  · exact step
  · exact Nat.lt_of_lt_of_le step (List.rel_of_pairwise_cons rest later)

theorem ascending_collapse {l : List Entry} (h : Climbing l) : Ascending (collapse l).1 := by
  fun_induction collapse l with
  | case1 => exact .nil
  | case2 e => exact List.pairwise_singleton ..
  | case3 d e l same ih => exact ih h.of_cons
  | case4 d e l apart ih =>
    exact .cons (fun x hx => h.lt_of_ne apart x (mem_of_mem_collapse hx)) (ih h.of_cons)

theorem lastWrite?_cons (e : Entry) (l : List Entry) (i : Nat) :
    lastWrite? (e :: l) i = (lastWrite? l i).or (if e.index = i then some e.value else none) := by
  simp only [lastWrite?, List.reverse_cons, lookup_append, lookup_cons, lookup_nil]

theorem lastWrite?_eq_none {l : List Entry} {i : Nat} (h : ∀ e ∈ l, e.index ≠ i) : lastWrite? l i = none :=
  lookup_eq_none_iff.2 fun e he => h e (List.mem_reverse.1 he)

theorem lookup_collapse {l : List Entry} (h : Climbing l) (i : Nat) : lookup (collapse l).1 i = lastWrite? l i := by
  fun_induction collapse l with
  | case1 => rfl
  | case2 e => simp [lastWrite?]
  | case3 d e l same ih =>
    rw [ih h.of_cons, lastWrite?_cons d, lastWrite?_cons e]
    -- the entry that is passed over would be seen only if the next one were not
    by_cases here : e.index = i
    · simp [here]
    · simp [here, same]
  | case4 d e l apart ih =>
    rw [lookup_cons, ih h.of_cons, lastWrite?_cons d]
    by_cases here : d.index = i
    · have gone : lastWrite? (e :: l) i = none := lastWrite?_eq_none fun x hx => by
        have := h.lt_of_ne apart x hx
        omega
      simp [here, gone]
    · simp [here]

/-- **Runs collapse to the last writes.** -/
theorem collapse_eq {l : List Entry} (h : Climbing l) : (collapse l).1 = lastWrites l := by
  refine (ascending_collapse h).ext (ascending_lastWrites l) fun i => ?_
  rw [lookup_collapse h, lookup_lastWrites]

/-- What is last written to an index depends on the writes to that index. -/
theorem lastWrite?_eq_filter (l : List Entry) (i : Nat) :
    lastWrite? l i = ((l.filter (·.index = i)).getLast?).map (·.value) := by
  rw [lastWrite?, lookup, ← List.head?_filter, List.filter_reverse, List.head?_reverse]

theorem lastWrites_congr {k l : List Entry} (h : ∀ i, k.filter (·.index = i) = l.filter (·.index = i)) :
    lastWrites k = lastWrites l := by
  refine (ascending_lastWrites k).ext (ascending_lastWrites l) fun i => ?_
  rw [lookup_lastWrites, lookup_lastWrites, lastWrite?_eq_filter, lastWrite?_eq_filter, h]

theorem perm_sorted (writes : List Entry) : (sorted writes).Perm writes := List.mergeSort_perm ..

theorem climbing_sorted (writes : List Entry) : Climbing (sorted writes) := by
  have climbs : (sorted writes).Pairwise fun d e => decide (d.index ≤ e.index) = true := List.pairwise_mergeSort
    (fun a b c => by simpa using Nat.le_trans) (fun a b => by simpa using Nat.le_total a.index b.index) writes
  exact climbs.imp of_decide_eq_true

theorem filter_sorted (writes : List Entry) (i : Nat) :
    (sorted writes).filter (·.index = i) = writes.filter (·.index = i) :=
  filter_mergeSort (fun a b c => by simpa using Nat.le_trans) (fun a b => by simpa using Nat.le_total a.index b.index)
    (fun a b ha hb => by simp_all) writes

/-- **The last writes are what the sorted writes collapse to**, and what is passed over is what is not among them. -/
theorem collapse_sorted (writes : List Entry) : (collapse (sorted writes)).1 = lastWrites writes ∧
    (lastWrites writes).length + (collapse (sorted writes)).2 = writes.length := by
  have kept : (collapse (sorted writes)).1 = lastWrites writes :=
    (collapse_eq (climbing_sorted writes)).trans (lastWrites_congr (filter_sorted writes))
  refine ⟨kept, ?_⟩
  rw [← kept, length_collapse]
  exact (perm_sorted writes).length_eq

/-! ## Writes without repetitions -/

/-- A line that is written entry by entry is what the writes leave, in whatever order they come. -/
theorem lastWrites_of_perm {l writes : List Entry} (h : Ascending l) (perm : writes.Perm l) : lastWrites writes = l := by
  refine (ascending_lastWrites writes).ext h fun i => Option.ext fun v => ?_
  have written : ∀ {w}, lastWrite? writes i = some w → lookup l i = some w := fun hw =>
    h.lookup_eq_some_iff.2 (perm.mem_iff.1 (List.mem_reverse.1 (mem_of_lookup hw)))
  rw [lookup_lastWrites]
  refine ⟨written, fun stored => ?_⟩
  have named : ⟨i, v⟩ ∈ writes.reverse := List.mem_reverse.2 (perm.mem_iff.2 (mem_of_lookup stored))
  cases last : lastWrite? writes i with
  | none => exact absurd rfl (lookup_eq_none_iff.1 last _ named)
  | some w => rw [← stored, written last]

/-- Where no index comes twice the sorted writes are a line, and nothing is lost. -/
theorem ascending_sorted {writes : List Entry} (nodup : (writes.map Entry.index).Nodup) : Ascending (sorted writes) := by
  have apart : (sorted writes).Pairwise (·.index ≠ ·.index) := by
    rw [← List.pairwise_map]
    exact ((perm_sorted writes).map Entry.index).nodup_iff.2 nodup
  exact (climbing_sorted writes).imp₂ (fun _ _ le ne => Nat.lt_of_le_of_ne le ne) apart

theorem lastWrites_eq_sorted {writes : List Entry} (nodup : (writes.map Entry.index).Nodup) :
    lastWrites writes = sorted writes :=
  lastWrites_of_perm (ascending_sorted nodup) (perm_sorted writes).symm

/-! ## Cells of several rows -/

/-- The cells by row and column; those of one place stay in their order. -/
def sortedCells (cells : List (Nat × Entry)) : List (Nat × Entry) :=
  cells.mergeSort fun c d => decide (c.1 < d.1 ∨ c.1 = d.1 ∧ c.2.index ≤ d.2.index)

/-- What a sweep comes to: the line of every row, the number of cells that were passed over, and the cells that it does
not come to. -/
structure Swept where
  lines : List (List Entry)
  passed : Nat
  left : List (Nat × Entry)

/-- Takes the rows one after another, each off the front of the cells. -/
def sweep : List Nat → List (Nat × Entry) → Swept
  | [], cells => ⟨[], 0, cells⟩
  | row :: rows, cells =>
    let line := collapse ((cells.takeWhile (·.1 = row)).map (·.2))
    let rest := sweep rows (cells.dropWhile (·.1 = row))
    ⟨line.1 :: rest.lines, line.2 + rest.passed, rest.left⟩

theorem itemsAt_eq_filter {α : Type} (k : Nat) (items : List (Nat × α)) :
    itemsAt k items = (items.filter (·.1 = k)).map (·.2) := by
  induction items with
  | nil => rfl
  | cons item items ih =>
    rw [itemsAt_cons, ih]
    by_cases here : item.1 = k <;> simp [here]

/-- The cells of the first row stand in front. -/
theorem takeWhile_eq_filter {row : Nat} : ∀ {cells : List (Nat × Entry)}, cells.Pairwise (·.1 ≤ ·.1) →
    (∀ c ∈ cells, row ≤ c.1) → cells.takeWhile (·.1 = row) = cells.filter (·.1 = row) ∧
      cells.dropWhile (·.1 = row) = cells.filter (row < ·.1)
  | [], _, _ => ⟨rfl, rfl⟩
  | c :: cells, climbs, ge => by
    obtain ⟨first, rest⟩ := List.pairwise_cons.1 climbs
    by_cases here : c.1 = row
    · obtain ⟨taken, dropped⟩ := takeWhile_eq_filter rest fun d hd => ge d (List.mem_cons_of_mem _ hd)
      simp [here, taken, dropped]
    · have beyond : row < c.1 := Nat.lt_of_le_of_ne (ge c (List.mem_cons_self ..)) (Ne.symm here)
      have later : ∀ d ∈ cells, row < d.1 := fun d hd => Nat.lt_of_lt_of_le beyond (first d hd)
      have none : cells.filter (·.1 = row) = [] := by
        simp only [List.filter_eq_nil_iff, decide_eq_true_eq]
        intro d hd same
        have := later d hd
        omega
      have all : cells.filter (row < ·.1) = cells := by simpa [List.filter_eq_self] using later
      simp [here, beyond, none, all]

/-- A sweep from a row upwards, over cells in order of which none lies below. -/
theorem sweep_eq : ∀ (n row : Nat) {cells : List (Nat × Entry)}, cells.Pairwise (·.1 ≤ ·.1) → (∀ c ∈ cells, row ≤ c.1) →
    sweep (List.range' row n) cells = {
      lines := (List.range' row n).map fun i => (collapse (itemsAt i cells)).1
      passed := total ((List.range' row n).map fun i => (collapse (itemsAt i cells)).2)
      left := cells.filter (row + n ≤ ·.1) }
  | 0, row, cells, _, ge => by
    have all : cells.filter (row ≤ ·.1) = cells := by simpa [List.filter_eq_self] using ge
    simp [sweep, all]
  | n + 1, row, cells, climbs, ge => by
    obtain ⟨taken, dropped⟩ := takeWhile_eq_filter climbs ge
    have above : ∀ c ∈ cells.filter (row < ·.1), row + 1 ≤ c.1 := fun c hc =>
      of_decide_eq_true (List.mem_filter.1 hc).2
    -- what is taken off the front is not seen by the rows that follow
    have later : ∀ i ∈ List.range' (row + 1) n, itemsAt i (cells.filter (row < ·.1)) = itemsAt i cells := fun i hi => by
      rw [itemsAt_eq_filter, itemsAt_eq_filter, List.filter_filter]
      congr 1
      refine List.filter_congr fun c _ => ?_
      have : row + 1 ≤ i := (List.mem_range'_1.1 hi).1
      by_cases here : c.1 = i
      · simp [here]
        omega
      · simp [here]
    have left : (cells.filter (row < ·.1)).filter (row + 1 + n ≤ ·.1) = cells.filter (row + (n + 1) ≤ ·.1) := by
      rw [List.filter_filter]
      refine List.filter_congr fun c _ => ?_
      rw [← Bool.decide_and]
      exact decide_eq_decide.2 (by omega)
    rw [List.range'_succ, sweep, taken, dropped, sweep_eq n (row + 1) (climbs.filter _) above, ← itemsAt_eq_filter, left]
    simp only [List.map_cons, total_cons, Swept.mk.injEq, List.cons.injEq, true_and, and_true]
    refine ⟨List.map_congr_left fun i hi => by rw [later i hi], ?_⟩
    rw [List.map_congr_left fun i hi => by rw [later i hi]]

theorem perm_sortedCells (cells : List (Nat × Entry)) : (sortedCells cells).Perm cells := List.mergeSort_perm ..

theorem pairwise_sortedCells (cells : List (Nat × Entry)) :
    (sortedCells cells).Pairwise fun c d => c.1 < d.1 ∨ c.1 = d.1 ∧ c.2.index ≤ d.2.index := by
  have inOrder : (sortedCells cells).Pairwise fun c d =>
      decide (c.1 < d.1 ∨ c.1 = d.1 ∧ c.2.index ≤ d.2.index) = true := List.pairwise_mergeSort
    (fun a b c h k => by simp only [decide_eq_true_eq] at *; omega)
    (fun a b => by simp only [Bool.or_eq_true, decide_eq_true_eq]; omega) cells
  exact inOrder.imp of_decide_eq_true

theorem climbing_itemsAt (cells : List (Nat × Entry)) (i : Nat) : Climbing (itemsAt i (sortedCells cells)) := by
  rw [itemsAt_eq_filter, Climbing, List.pairwise_map, List.pairwise_filter]
  refine (pairwise_sortedCells cells).imp fun h hc hd => ?_
  simp only [decide_eq_true_eq] at hc hd
  omega

/-- Sorting keeps the order in which one place was written to. -/
theorem filter_itemsAt_sortedCells (cells : List (Nat × Entry)) (i j : Nat) :
    (itemsAt i (sortedCells cells)).filter (·.index = j) = (itemsAt i cells).filter (·.index = j) := by
  have stable : (sortedCells cells).filter (fun c => c.2.index = j ∧ c.1 = i) =
      cells.filter (fun c => c.2.index = j ∧ c.1 = i) :=
    filter_mergeSort (fun a b c h k => by simp only [decide_eq_true_eq] at *; omega)
      (fun a b => by simp only [Bool.or_eq_true, decide_eq_true_eq]; omega)
      (fun a b ha hb => by simp only [decide_eq_true_eq] at *; omega) cells
  simp only [Bool.decide_and] at stable
  simp only [itemsAt_eq_filter, List.filter_map, List.filter_filter, Function.comp_def, stable]

/-- **A sweep over the sorted cells leads to the last writes of every row**, and comes to every cell. -/
theorem sweep_sortedCells {n : Nat} {cells : List (Nat × Entry)} (bounded : ∀ c ∈ cells, c.1 < n) :
    (sweep (List.range n) (sortedCells cells)).lines = (List.range n).map (fun i => lastWrites (itemsAt i cells)) ∧
      ((List.range n).map fun i => lastWrites (itemsAt i cells)).flatten.length +
        (sweep (List.range n) (sortedCells cells)).passed = cells.length ∧
      (sweep (List.range n) (sortedCells cells)).left = [] := by
  have climbs : (sortedCells cells).Pairwise (·.1 ≤ ·.1) := (pairwise_sortedCells cells).imp fun h => by omega
  have same : ∀ i, (collapse (itemsAt i (sortedCells cells))).1 = lastWrites (itemsAt i cells) := fun i =>
    (collapse_eq (climbing_itemsAt cells i)).trans (lastWrites_congr (filter_itemsAt_sortedCells cells i))
  rw [List.range_eq_range', sweep_eq n 0 climbs fun _ _ => Nat.zero_le _]
  refine ⟨List.map_congr_left fun i _ => same i, ?_, ?_⟩
  · -- every cell of a row is kept or passed over, and every cell is in a row
    have row : ∀ i, (lastWrites (itemsAt i cells)).length + (collapse (itemsAt i (sortedCells cells))).2 =
        ((sortedCells cells).filter fun c => some c.1 = some i).length := fun i => by
      rw [← same i, length_collapse, itemsAt_eq_filter, List.length_map]
      simp only [Option.some.injEq]
    have inRow : ∀ c ∈ sortedCells cells, ∃ i, some c.1 = some i ∧ i < n := fun c hc =>
      ⟨c.1, rfl, bounded c ((perm_sortedCells cells).mem_iff.1 hc)⟩
    rw [length_flatten_map, ← total_map_add, List.map_congr_left fun i _ => row i, ← List.range_eq_range',
      total_parts inRow, (perm_sortedCells cells).length_eq]
  · simp only [List.filter_eq_nil_iff, decide_eq_true_eq, Nat.not_le]
    intro c hc
    have := bounded c ((perm_sortedCells cells).mem_iff.1 hc)
    omega

end Sparse
end Multistage
