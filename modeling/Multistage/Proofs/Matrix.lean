import Multistage.Sparse.Matrix
/-!
# A matrix is known by its cells

`Matrix.cells` lists what is stored, each cell once, whatever the lines are (`mem_cells`, `nodup_cells`); two matrices of
one shape and order that answer every `get?` alike are equal (`ext_get?`).

A matrix may be given by a table of its cells (`tabulate`), or in compressed parts, whose starts need not begin with zero:
`mem_line_ofCompressed` says at which places of the parts the entries of a line stand.
-/
namespace Multistage

open Sparse

namespace Sparse

/-- The line that holds what a table says of the indices below a width. -/
def tabulate (width : Nat) (value? : Nat → Option Binary64) : List Entry :=
  (List.range width).filterMap fun i => (value? i).map (⟨i, ·⟩)

theorem mem_tabulate {width : Nat} {value? : Nat → Option Binary64} {e : Entry} :
    e ∈ tabulate width value? ↔ e.index < width ∧ value? e.index = some e.value := by
  obtain ⟨i, v⟩ := e
  simp only [tabulate, List.mem_filterMap, List.mem_range, Option.map_eq_some_iff, Entry.mk.injEq]
  constructor
  · rintro ⟨_, lt, _, said, rfl, rfl⟩
    exact ⟨lt, said⟩
  · rintro ⟨lt, said⟩
    exact ⟨i, lt, v, said, rfl, rfl⟩

theorem isLine_tabulate (width : Nat) (value? : Nat → Option Binary64) : IsLine width (tabulate width value?) := by
  refine ⟨?_, fun e he => (mem_tabulate.1 he).1⟩
  rw [Ascending, tabulate, List.pairwise_filterMap]
  refine List.pairwise_lt_range.imp fun {i j} lt d hd e he => ?_
  obtain ⟨_, -, rfl⟩ := Option.map_eq_some_iff.1 hd
  obtain ⟨_, -, rfl⟩ := Option.map_eq_some_iff.1 he
  exact lt

theorem lookup_tabulate (width : Nat) (value? : Nat → Option Binary64) (i : Nat) :
    lookup (tabulate width value?) i = if i < width then value? i else none := by
  refine Option.ext fun v => ?_
  rw [(isLine_tabulate width value?).ascending.lookup_eq_some_iff, mem_tabulate]
  split <;> simp [*]

end Sparse

namespace Matrix

/-! ## Cells -/

/-- The cell where an entry of a line stands. -/
def Order.cell : Order → Nat → Entry → Cell
  | .byRow, line, e => ⟨line, e.index, e.value⟩
  | .byColumn, line, e => ⟨e.index, line, e.value⟩

theorem Order.cell_eq_iff {o : Order} {line : Nat} {e : Entry} {c : Cell} :
    o.cell line e = c ↔ (line, e) = c.split o := by
  obtain ⟨i, v⟩ := e
  obtain ⟨row, col, w⟩ := c
  cases o <;> simp [cell, Cell.split, and_left_comm]

theorem Order.cell_inj {o : Order} {k l : Nat} {d e : Entry} (h : o.cell k d = o.cell l e) : k = l ∧ d = e :=
  Prod.mk.inj ((cell_eq_iff.1 h).trans (cell_eq_iff.1 rfl).symm)

/-- What is stored, line after line. -/
def cells (m : Matrix) : List Cell := m.lines.toList.zipIdx.flatMap fun p => p.1.map (m.order.cell p.2)

theorem length_cells (m : Matrix) : m.cells.length = m.size := by
  rw [cells, size, entries, List.length_flatMap, List.length_flatten]
  simp only [List.length_map]
  rw [← List.zipIdx_map_fst 0 m.lines.toList, List.map_map, List.zipIdx_map_fst]
  rfl

theorem mem_cells_iff_line {m : Matrix} {c : Cell} : c ∈ m.cells ↔ (c.split m.order).2 ∈ m.line (c.split m.order).1 := by
  simp only [cells, List.mem_flatMap, List.mem_map, Order.cell_eq_iff]
  rw [line, Array.getD_eq_getD_getElem?]
  constructor
  · rintro ⟨⟨l, k⟩, hp, e, he, same⟩
    have hl : m.lines[k]? = some l := by simpa using List.mem_zipIdx_iff_getElem?.1 hp
    rw [← same, hl]
    exact he
  · intro he
    cases hl : m.lines[(c.split m.order).1]? with
    | none =>
      rw [hl] at he
      cases he
    | some l =>
      rw [hl] at he
      exact ⟨(l, _), List.mem_zipIdx_iff_getElem?.2 ((Array.getElem?_toList ..).trans hl), _, he, rfl⟩

/-- **The cells are those that are found.** -/
theorem mem_cells {m : Matrix} {c : Cell} : c ∈ m.cells ↔ m.get? c.row c.col = some c.value := by
  rw [mem_cells_iff_line, get?]
  cases m.order with
  | byRow => exact (m.isLine_line c.row).ascending.lookup_eq_some_iff.symm
  | byColumn => exact (m.isLine_line c.col).ascending.lookup_eq_some_iff.symm

theorem nodup_cells (m : Matrix) : m.cells.Nodup := by
  rw [cells, List.Nodup, List.pairwise_flatMap]
  refine ⟨fun p hp => ?_, ?_⟩
  · rw [List.pairwise_map]
    have hl : p.1 ∈ m.lines := Array.mem_toList_iff.1 (List.fst_mem_of_mem_zipIdx hp)
    refine (m.isLine _ hl).ascending.imp fun {d e} lt same => ?_
    obtain ⟨-, rfl⟩ := Order.cell_inj same
    exact Nat.lt_irrefl _ lt
  · refine (pairwise_zipIdx m.lines.toList).imp fun {p q} lt c hc d hd same => ?_
    obtain ⟨e, -, rfl⟩ := List.mem_map.1 hc
    obtain ⟨f, -, rfl⟩ := List.mem_map.1 hd
    exact Nat.ne_of_lt lt (Order.cell_inj same).1

/-- What is found lies inside the shape. -/
theorem lt_of_get? {m : Matrix} {i j : Nat} {v : Binary64} (h : m.get? i j = some v) :
    i < m.numRows ∧ j < m.numCols := by
  have inside : ∀ {k : Nat} {e : Entry}, e ∈ m.line k → k < m.lines.size ∧ e.index < m.width := fun {k e} he => by
    refine ⟨Nat.lt_of_not_le fun beyond => ?_, (m.isLine_line k).bounded e he⟩
    rw [line, Array.getD_eq_getD_getElem?, Array.getElem?_eq_none beyond] at he
    cases he
  rw [get?] at h
  rw [numRows, numCols]
  cases ho : m.order with
  | byRow =>
    rw [ho] at h
    exact inside (mem_of_lookup h)
  | byColumn =>
    rw [ho] at h
    exact (inside (mem_of_lookup h)).symm

theorem get?_eq_none {m : Matrix} {i j : Nat} (outside : ¬ (i < m.numRows ∧ j < m.numCols)) : m.get? i j = none :=
  Option.eq_none_iff_forall_ne_some.2 fun _ found => outside (lt_of_get? found)

/-- **Matrices that answer alike are equal**, if they are of one shape and kept alike. -/
theorem ext_get? {m n : Matrix} (order : m.order = n.order) (numRows : m.numRows = n.numRows)
    (numCols : m.numCols = n.numCols) (get : ∀ i j, m.get? i j = n.get? i j) : m = n := by
  have shape : m.lines.size = n.lines.size ∧ m.width = n.width ∧ ∀ k, m.line k = n.line k := by
    simp only [Matrix.numRows, Matrix.numCols, Matrix.get?, ← order] at numRows numCols get
    have line := fun k => (m.isLine_line k).ascending.ext (n.isLine_line k).ascending
    cases ho : m.order with
    | byRow =>
      simp only [ho] at numRows numCols get
      exact ⟨numRows, numCols, fun k => line k (get k)⟩
    | byColumn =>
      simp only [ho] at numRows numCols get
      exact ⟨numCols, numRows, fun k => line k fun i => get i k⟩
  obtain ⟨size, width, line⟩ := shape
  have lines : m.lines = n.lines := Array.ext size fun k hk _ => by
    have line := line k
    rwa [Matrix.line, Matrix.line, ← Array.getElem_eq_getD, ← Array.getElem_eq_getD] at line
  cases m
  cases n
  cases order
  cases width
  cases lines
  rfl

/-! ## Tables of cells -/

/-- A table of cells, asked for a line and an index in it. -/
def Order.along : Order → (Nat → Nat → Option Binary64) → Nat → Nat → Option Binary64
  | .byRow, value?, line, i => value? line i
  | .byColumn, value?, line, i => value? i line

/-- The matrix of a shape that holds what a table says of its cells. -/
def tabulate (order : Order) (numRows numCols : Nat) (value? : Nat → Nat → Option Binary64) : Matrix where
  order := order
  width := (order.extent numRows numCols).2
  lines := (Array.range (order.extent numRows numCols).1).map fun k =>
    Sparse.tabulate (order.extent numRows numCols).2 (order.along value? k)
  isLine l hl := by
    obtain ⟨k, -, rfl⟩ := Array.mem_map.1 hl
    exact isLine_tabulate ..

variable {order : Order} {numRows numCols : Nat} {value? : Nat → Nat → Option Binary64}

@[simp] theorem order_tabulate : (tabulate order numRows numCols value?).order = order := rfl

@[simp] theorem numRows_tabulate : (tabulate order numRows numCols value?).numRows = numRows := by
  cases order with
  | byRow => exact (Array.size_map ..).trans Array.size_range
  | byColumn => rfl

@[simp] theorem numCols_tabulate : (tabulate order numRows numCols value?).numCols = numCols := by
  cases order with
  | byRow => rfl
  | byColumn => exact (Array.size_map ..).trans Array.size_range

/-- A table is answered from inside the shape. -/
theorem get?_tabulate (i j : Nat) :
    (tabulate order numRows numCols value?).get? i j = if i < numRows ∧ j < numCols then value? i j else none := by
  have line : ∀ k, (tabulate order numRows numCols value?).line k =
      if k < (order.extent numRows numCols).1 then
        Sparse.tabulate (order.extent numRows numCols).2 (order.along value? k)
      else [] := fun k => by
    rw [Matrix.line, Array.getD_eq_getD_getElem?, tabulate, Array.getElem?_map, Array.getElem?_range]
    split <;> rfl
  rw [get?, order_tabulate]
  cases order with
  | byRow =>
    simp only [line, Order.extent]
    by_cases hi : i < numRows <;> simp [hi, lookup_tabulate, Order.along]
  | byColumn =>
    simp only [line, Order.extent]
    by_cases hj : j < numCols <;> simp [hj, lookup_tabulate, Order.along]

/-! ## Compressed parts -/

/-- Compressed parts store an entry in a line: it stands between the start of the line and that of the next, both counted
from the first start. -/
def StoredAt (starts indices : List Nat) (values : List Binary64) (line : Nat) (e : Entry) : Prop :=
  ∃ place first low high, starts[0]? = some first ∧ starts[line]? = some low ∧ starts[line + 1]? = some high ∧
    low ≤ first + place ∧ first + place < high ∧ indices[place]? = some e.index ∧ values[place]? = some e.value

theorem gaps_cons (a b : Nat) (starts : List Nat) : gaps (a :: b :: starts) = (b - a) :: gaps (b :: starts) := rfl

section Cut

variable {α : Type}

theorem length_cut : ∀ (lengths : List Nat) (l : List α), (cut lengths l).length = lengths.length
  | [], _ => rfl
  | n :: lengths, l => congrArg (· + 1) (length_cut lengths (l.drop n))

/-- A part lies between its start and the next, counted from the first start. -/
theorem mem_cut_gaps {x : α} : ∀ (first : Nat) (starts : List Nat) (l : List α) (k : Nat) (part : List α),
    (first :: starts).Pairwise (· ≤ ·) → (cut (gaps (first :: starts)) l)[k]? = some part →
    (x ∈ part ↔ ∃ place low high, (first :: starts)[k]? = some low ∧ (first :: starts)[k + 1]? = some high ∧
      low ≤ first + place ∧ first + place < high ∧ l[place]? = some x)
  | first, [], l, k, part, _, h => by cases h
  | first, next :: starts, l, 0, part, sorted, h => by
    obtain rfl : l.take (next - first) = part := Option.some.inj h
    have := List.rel_of_pairwise_cons sorted (List.mem_cons_self ..)
    simp only [List.mem_iff_getElem?, List.getElem?_take]
    constructor
    · rintro ⟨place, hp⟩
      split at hp
      · exact ⟨place, first, next, rfl, rfl, by omega, by omega, hp⟩
      · cases hp
    · rintro ⟨place, low, high, hl, hh, above, below, hx⟩
      obtain rfl : first = low := Option.some.inj hl
      obtain rfl : next = high := Option.some.inj hh
      exact ⟨place, by rwa [if_pos (by omega)]⟩
  | first, next :: starts, l, k + 1, part, sorted, h => by
    have le := List.rel_of_pairwise_cons sorted (List.mem_cons_self ..)
    rw [mem_cut_gaps next starts (l.drop (next - first)) k part sorted.of_cons h]
    simp only [List.getElem?_cons_succ, List.getElem?_drop]
    constructor
    · rintro ⟨place, low, high, hl, hh, above, below, hx⟩
      exact ⟨next - first + place, low, high, hl, hh, by omega, by omega, hx⟩
    · rintro ⟨place, low, high, hl, hh, above, below, hx⟩
      have : next ≤ low := by
        rcases k with _ | k
        · exact Nat.le_of_eq (Option.some.inj hl)
        · exact List.rel_of_pairwise_cons sorted.of_cons (List.mem_of_getElem? hl)
      refine ⟨place - (next - first), low, high, hl, hh, by omega, by omega, ?_⟩
      rwa [show next - first + (place - (next - first)) = place by omega]

theorem flatten_cut_gaps : ∀ (first : Nat) (starts : List Nat) (l : List α) (last : Nat),
    (first :: starts).Pairwise (· ≤ ·) → (first :: starts).getLast? = some last →
    (cut (gaps (first :: starts)) l).flatten = l.take (last - first)
  | first, [], l, last, _, h => by
    obtain rfl : first = last := Option.some.inj h
    rw [Nat.sub_self]
    rfl
  | first, next :: starts, l, last, sorted, h => by
    have le := List.rel_of_pairwise_cons sorted (List.mem_cons_self ..)
    have h : (next :: starts).getLast? = some last := h
    have : next ≤ last := by
      rcases List.mem_cons.1 (List.mem_of_getLast? h) with rfl | hl
      · exact Nat.le_refl _
      · exact List.rel_of_pairwise_cons sorted.of_cons hl
    rw [gaps_cons, cut, List.flatten_cons, flatten_cut_gaps next starts _ last sorted.of_cons h,
      show last - first = (next - first) + (last - next) by omega, List.take_add]

end Cut

/-- What accepted parts are: the starts ascend, there is one for each line and one for the end, and they reach over all
entries. -/
theorem ofCompressed?_eq_ok {starts indices : List Nat} {values : List Binary64} {m : Matrix}
    (h : ofCompressed? order numRows numCols starts indices values = .ok m) :
    ∃ first rest last, starts = first :: rest ∧ starts.Pairwise (· ≤ ·) ∧ starts.getLast? = some last ∧
      values.length = indices.length ∧ indices.length = last - first ∧ m.order = order ∧
      m.lines = (cut (gaps starts) (List.zipWith Entry.mk indices values)).toArray := by
  simp only [ofCompressed?] at h
  split at h
  · cases h
  rename_i even
  split at h
  · cases h
  rename_i sorted
  split at h
  · rename_i first last head final
    split at h
    · cases h
    split at h
    · cases h
    split at h
    · cases h
    rename_i count
    obtain ⟨order, -, lines⟩ := ofLines?_eq_ok.1 h
    obtain ⟨rest, rfl⟩ : ∃ rest, starts = first :: rest := by
      cases starts with
      | nil => cases head
      | cons a rest => exact ⟨rest, by rw [Option.some.inj head]⟩
    rw [Bool.not_eq_false, chained_iff (fun a b c h k => by simp only [decide_eq_true_eq] at *; omega)] at sorted
    exact ⟨first, rest, last, rfl, sorted.imp fun le => of_decide_eq_true le, final, Decidable.not_not.1 even,
      Decidable.not_not.1 count, order, lines⟩
  · cases h

/-- **The entries of a line stand between the start of the line and the start of the next.** -/
theorem mem_line_ofCompressed {starts indices : List Nat} {values : List Binary64} {m : Matrix}
    (h : ofCompressed? order numRows numCols starts indices values = .ok m) {k : Nat} {e : Entry} :
    e ∈ m.line k ↔ StoredAt starts indices values k e := by
  obtain ⟨first, rest, last, rfl, sorted, -, -, -, -, lines⟩ := ofCompressed?_eq_ok h
  have entry : ∀ place, (List.zipWith Entry.mk indices values)[place]? = some e ↔
      indices[place]? = some e.index ∧ values[place]? = some e.value := fun place => by
    obtain ⟨i, v⟩ := e
    rw [List.getElem?_zipWith]
    cases indices[place]? <;> cases values[place]? <;> simp
  rw [line, Array.getD_eq_getD_getElem?, lines, List.getElem?_toArray]
  cases hp : (cut (gaps (first :: rest)) (List.zipWith Entry.mk indices values))[k]? with
  | some part =>
    rw [Option.getD_some, mem_cut_gaps first rest _ k part sorted hp]
    simp only [entry]
    constructor
    · rintro ⟨place, low, high, hl, hh, above, below, stored⟩
      exact ⟨place, first, low, high, rfl, hl, hh, above, below, stored⟩
    · rintro ⟨place, _, low, high, hf, hl, hh, above, below, stored⟩
      obtain rfl := Option.some.inj hf
      exact ⟨place, low, high, hl, hh, above, below, stored⟩
  | none =>
    rw [List.getElem?_eq_none_iff, length_cut] at hp
    have length : (gaps (first :: rest)).length = rest.length := by simp [gaps]
    rw [Option.getD_none]
    refine iff_of_false List.not_mem_nil ?_
    rintro ⟨_, _, _, _, _, _, hh, _⟩
    have := (List.getElem?_eq_some_iff.1 hh).1
    rw [List.length_cons] at this
    omega

theorem mem_cells_ofCompressed {starts indices : List Nat} {values : List Binary64} {m : Matrix}
    (h : ofCompressed? order numRows numCols starts indices values = .ok m) {c : Cell} :
    c ∈ m.cells ↔ StoredAt starts indices values (c.split order).1 (c.split order).2 := by
  obtain ⟨-, -, -, -, -, -, -, -, rfl, -⟩ := ofCompressed?_eq_ok h
  rw [mem_cells_iff_line, mem_line_ofCompressed h]

theorem size_ofCompressed {starts indices : List Nat} {values : List Binary64} {m : Matrix}
    (h : ofCompressed? order numRows numCols starts indices values = .ok m) : m.size = indices.length := by
  obtain ⟨first, rest, last, rfl, sorted, final, even, count, -, lines⟩ := ofCompressed?_eq_ok h
  rw [size, entries, lines, flatten_cut_gaps first rest _ last sorted final, List.length_take, List.length_zipWith]
  omega

end Matrix
end Multistage
