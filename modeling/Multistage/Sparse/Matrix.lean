import Multistage.Bucket
import Multistage.Sparse.Vector
/-!
# Sparse matrices

A matrix keeps one line per row or one per column.  `get?` looks through that difference: it asks for a row and a
column, and `byRow` turns a matrix kept by column into one kept by row that answers every `get?` alike.

A matrix given in compressed form is three parallel lists; the lines are cut out of them at the stated
starts, of which the first need not be zero.
-/
namespace Multistage

open Sparse

/-- Whether the lines of a matrix are its rows or its columns. -/
inductive Matrix.Order where
  | byRow
  | byColumn
deriving DecidableEq, Repr

/-- The number of lines and their length, in a shape of so many rows and columns. -/
def Matrix.Order.extent : Order → (numRows numCols : Nat) → Nat × Nat
  | byRow, numRows, numCols => (numRows, numCols)
  | byColumn, numRows, numCols => (numCols, numRows)

structure Matrix where
  order : Matrix.Order
  width : Nat
  lines : Array (List Entry)
  isLine : ∀ l ∈ lines, IsLine width l
deriving DecidableEq

namespace Matrix

def numRows (m : Matrix) : Nat :=
  match m.order with
  | .byRow => m.lines.size
  | .byColumn => m.width

def numCols (m : Matrix) : Nat :=
  match m.order with
  | .byRow => m.width
  | .byColumn => m.lines.size

/-- The entries of a line; beyond the last line there are none. -/
def line (m : Matrix) (i : Nat) : List Entry := m.lines.getD i []

def get? (m : Matrix) (row col : Nat) : Option Binary64 :=
  match m.order with
  | .byRow => lookup (m.line row) col
  | .byColumn => lookup (m.line col) row

def entries (m : Matrix) : List Entry := m.lines.toList.flatten

/-- Where each line starts among the entries, and where the last one ends. -/
def starts (m : Matrix) : List Nat := runningSums 0 (m.lines.toList.map List.length)

def size (m : Matrix) : Nat := m.entries.length

theorem isLine_line (m : Matrix) (i : Nat) : IsLine m.width (m.line i) := by
  rw [line, Array.getD_eq_getD_getElem?]
  cases h : m.lines[i]? with
  | none => exact IsLine.nil _
  | some l => exact m.isLine l (Array.mem_of_getElem? h)

def vector (m : Matrix) (i : Nat) : SparseVector := ⟨m.width, m.line i, m.isLine_line i⟩

/-! ## From lines -/

/-- What is wrong with the order or the bounds of a line. -/
def lineFault? (width : Nat) (l : List Entry) : Option Fault :=
  if Ascending l then
    if ∀ e ∈ l, e.index < width then none else some .beyondWidth
  else some .unsortedLine

theorem lineFault?_eq_none {width : Nat} {l : List Entry} : lineFault? width l = none ↔ IsLine width l := by
  rw [lineFault?, isLine_iff]
  by_cases h : Ascending l <;> by_cases k : ∀ e ∈ l, e.index < width <;> simp [h, k]

/-- The lines as they stand, if all are in order and in bounds. -/
def ofLines? (order : Order) (width : Nat) (lines : Array (List Entry)) : Except Fault Matrix :=
  match h : lines.findSome? (lineFault? width) with
  | some fault => .error fault
  | none => .ok ⟨order, width, lines, fun l hl => lineFault?_eq_none.1 (Array.findSome?_eq_none_iff.1 h l hl)⟩

theorem ofLines?_eq_ok {order : Order} {width : Nat} {lines : Array (List Entry)} {m : Matrix} :
    ofLines? order width lines = .ok m ↔ m.order = order ∧ m.width = width ∧ m.lines = lines := by
  obtain ⟨o, w, ls, hl⟩ := m
  unfold ofLines?
  split
  · rename_i fault h
    simp only [reduceCtorEq, false_iff]
    rintro ⟨rfl, rfl, rfl⟩
    have := Array.findSome?_eq_none_iff.2 fun l h => lineFault?_eq_none.2 (hl l h)
    rw [this] at h
    cases h
  · simp [eq_comm]

/-! ## From compressed parts -/

/-- Cuts a list into parts of the given lengths. -/
def cut {α : Type} : List Nat → List α → List (List α)
  | [], _ => []
  | n :: ns, l => l.take n :: cut ns (l.drop n)

/-- The distance from each number to the next. -/
def gaps (starts : List Nat) : List Nat := List.zipWith (fun a b => b - a) starts starts.tail

/-- The largest start that fits a signed word. -/
def maxStart : Nat := 0x7fffffffffffffff

/-- Builds a matrix of a shape from compressed parts, or names the first fault in the order of checking. -/
def ofCompressed? (order : Order) (numRows numCols : Nat) (starts indices : List Nat)
    (values : List Binary64) : Except Fault Matrix :=
  let (height, width) := order.extent numRows numCols
  if values.length ≠ indices.length then .error .unevenMatrix
  else if chained (fun a b => decide (a ≤ b)) starts = false then .error .descendingStarts
  else match starts.head?, starts.getLast? with
    | some first, some last =>
      if maxStart < last then .error .hugeStart
      else if starts.length ≠ height + 1 then .error .startCount
      else if indices.length ≠ last - first then .error .entryCount
      else ofLines? order width (cut (gaps starts) (List.zipWith Entry.mk indices values)).toArray
    | _, _ => .error .noStarts

/-! ## From single cells -/

structure Cell where
  row : Nat
  col : Nat
  value : Binary64
deriving DecidableEq, Repr

def gather (cells : Cells) (e : Entry) : Cells :=
  cells.put ⟨e.index, match cells[e.index]? with
    | some value => value + e.value
    | none => e.value⟩

/-- The line of a cell, and its entry in the line. -/
def Cell.split (c : Cell) : Order → Nat × Entry
  | .byRow => (c.row, ⟨c.col, c.value⟩)
  | .byColumn => (c.col, ⟨c.row, c.value⟩)

/-- Builds a matrix from cells in any order; values given for one cell are added up, and zeros are kept. -/
def ofCells? (order : Order) (numRows numCols : Nat) (cells : List Cell) : Except Fault Matrix :=
  let (height, width) := order.extent numRows numCols
  let groups : Array (List Entry) := buckets height (cells.map (·.split order))
  ofLines? order width (groups.map fun l => (l.foldl gather (∅ : Cells)).toLine)

/-! ## Row by row -/

/-- The entries of all lines, each under its own index and with the number of its line. -/
def flipped (m : Matrix) : List (Nat × Entry) :=
  m.lines.toList.zipIdx.flatMap fun p => p.1.map fun e => (e.index, ⟨p.2, e.value⟩)

theorem mem_flipped {m : Matrix} {i j : Nat} {v : Binary64} :
    (i, ⟨j, v⟩) ∈ m.flipped ↔ ⟨i, v⟩ ∈ m.line j := by
  simp only [flipped, List.mem_flatMap, List.mem_map, Prod.mk.injEq, Entry.mk.injEq]
  constructor
  · rintro ⟨⟨l, k⟩, hp, e, he, rfl, rfl, rfl⟩
    rw [List.mem_zipIdx_iff_getElem?] at hp
    simpa [line, Array.getD_eq_getD_getElem?, show m.lines[k]? = some l by simpa using hp] using he
  · intro h
    cases hl : m.lines[j]? with
    | none => simp [line, Array.getD_eq_getD_getElem?, hl] at h
    | some l =>
      rw [line, Array.getD_eq_getD_getElem?, hl] at h
      exact ⟨(l, j), List.mem_zipIdx_iff_getElem?.2 (by simpa using hl), _, h, rfl, rfl, rfl⟩

theorem ascending_itemsAt_flipped (m : Matrix) (i : Nat) : Ascending (itemsAt i m.flipped) := by
  rw [Ascending, itemsAt, List.pairwise_filterMap, flipped, List.pairwise_flatMap]
  refine ⟨fun p hp => ?_, ?_⟩
  · rw [List.pairwise_map]
    have hl : p.1 ∈ m.lines := Array.mem_toList_iff.1 (List.fst_mem_of_mem_zipIdx hp)
    exact (m.isLine _ hl).ascending.imp fun h => by grind
  · exact (pairwise_zipIdx m.lines.toList).imp fun h => by grind

/-- The same matrix kept by row. -/
def byRow (m : Matrix) : Matrix :=
  match m.order with
  | .byRow => m
  | .byColumn =>
    { order := .byRow
      width := m.lines.size
      lines := buckets m.width m.flipped
      isLine := fun l hl => by
        obtain ⟨i, hi⟩ := Array.getElem?_of_mem hl
        rw [buckets_getElem?] at hi
        split at hi
        · cases hi
          refine ⟨m.ascending_itemsAt_flipped i, fun e he => ?_⟩
          have := mem_flipped.1 (mem_itemsAt.1 he)
          rcases Nat.lt_or_ge e.index m.lines.size with h | h
          · exact h
          · simp [line, Array.getD_eq_getD_getElem?, Array.getElem?_eq_none h] at this
        · cases hi }

@[simp] theorem order_byRow (m : Matrix) : m.byRow.order = .byRow := by
  unfold byRow; split <;> simp [*]

@[simp] theorem numCols_byRow (m : Matrix) : m.byRow.numCols = m.numCols := by
  unfold byRow; split <;> simp [numCols, *]

/-- **Turning a matrix moves nothing**: every cell holds what it held. -/
@[simp] theorem get?_byRow (m : Matrix) (i j : Nat) : m.byRow.get? i j = m.get? i j := by
  cases ho : m.order with
  | byRow => simp [byRow, ho]
  | byColumn =>
    have line : m.byRow.line i = if i < m.width then itemsAt i m.flipped else [] := by
      rw [Matrix.line, byRow, ho, Array.getD_eq_getD_getElem?, buckets_getElem?]
      split <;> rfl
    rw [get?, order_byRow, get?, ho]
    simp only [line]
    have hj := m.isLine_line j
    split
    · refine Option.ext fun v => ?_
      rw [(m.ascending_itemsAt_flipped i).lookup_eq_some_iff, mem_itemsAt, mem_flipped,
        hj.ascending.lookup_eq_some_iff]
    · rename_i h
      exact (lookup_eq_none_iff.2 fun e he hi => h (by have := hj.bounded e he; omega)).symm

end Matrix
end Multistage
