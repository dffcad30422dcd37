import Multistage.Field
import Multistage.Parts
import Multistage.Sparse.Line
/-!
# Patches

A patch holds the entries in which a node differs from its template: first the matrix rows of the stage, then the
five fields in storage order, all in one array cut into parts.  Indices are internal, and nothing is
assumed of their order.

Two patches have the same content when they are cut alike and hold the same indices and the same value bits.
`sameContent` compares them so, table by table, and it decides `=`, which is the comparison that sharing needs.
-/
namespace Multistage

open Sparse

structure Patch where
  parts : Parts Entry
  numRows : Nat
  /-- A part for each row and each field. -/
  count : parts.count = numRows + 5
  complete : parts.pending = []

namespace Patch

def empty (numRows : Nat) : Patch where
  parts := Parts.empty.closeUntil (numRows + 5)
  numRows := numRows
  count := by rw [Parts.count_closeUntil]; simp
  complete := Parts.pending_closeUntil Parts.pending_empty _

def size (p : Patch) : Nat := p.parts.items.size

def row (p : Patch) (i : Nat) : List Entry := p.parts.part i

def field (p : Patch) (f : Field) : List Entry := p.parts.part (p.numRows + f.rank)

def matrixSize (p : Patch) : Nat := p.parts.start p.numRows

/-! ## Comparing -/

/-- Where each row starts, and where the last one ends. -/
def rowStarts (p : Patch) : List Nat := p.parts.starts.toList.take (p.numRows + 1)

/-- Where each field starts, and where the last one ends. -/
def fieldStarts (p : Patch) : List Nat := p.parts.starts.toList.drop p.numRows

def indices (p : Patch) : List Nat := p.parts.items.toList.map (·.index)

def values (p : Patch) : List Binary64 := p.parts.items.toList.map (·.value)

/-- Compares both tables of starts and the indices, and the bits of the values that stand side by side. -/
def sameContent (p q : Patch) : Bool :=
  p.rowStarts == q.rowStarts && p.fieldStarts == q.fieldStarts && p.indices == q.indices &&
    (p.values.zip q.values).all fun vw => vw.1.bits == vw.2.bits

/-- Nothing is left over of either list if they are equally long. -/
theorem all_bits_eq_true : ∀ {l m : List Binary64}, l.length = m.length →
    (((l.zip m).all fun vw => vw.1.bits == vw.2.bits) = true ↔ l = m)
  | [], [], _ => by simp
  | ⟨v⟩ :: l, ⟨w⟩ :: m, h => by
    rw [List.zip_cons_cons, List.all_cons, Bool.and_eq_true, all_bits_eq_true (Nat.succ.inj h), beq_iff_eq,
      List.cons.injEq, Binary64.mk.injEq]

/-- Entries are known by their indices and their values. -/
theorem ext_columns {l m : List Entry} (indices : l.map (·.index) = m.map (·.index))
    (values : l.map (·.value) = m.map (·.value)) : l = m := by
  induction l generalizing m with
  | nil => exact (List.map_eq_nil_iff.1 indices.symm).symm
  | cons e l ih =>
    cases m with
    | nil => cases indices
    | cons f m =>
      obtain ⟨index, indices⟩ := List.cons.inj indices
      obtain ⟨value, values⟩ := List.cons.inj values
      rw [ih indices values, List.cons.injEq, Entry.mk.injEq]
      exact ⟨⟨index, value⟩, rfl⟩

theorem size_starts (p : Patch) : p.parts.starts.toList.length = p.numRows + 6 := by
  rw [Array.length_toList, p.parts.size_starts, p.count]

theorem length_rowStarts (p : Patch) : p.rowStarts.length = p.numRows + 1 := by
  rw [rowStarts, List.length_take, p.size_starts]
  omega

/-- The two tables overlap in one start and leave none out. -/
theorem starts_eq (p : Patch) : p.parts.starts.toList = p.rowStarts.take p.numRows ++ p.fieldStarts := by
  rw [rowStarts, List.take_take, Nat.min_eq_left (Nat.le_succ _), fieldStarts, List.take_append_drop]

/-- **Comparing the tables decides whether two patches are equal**: the tables say how many rows there are, and as many
values stand in one patch as in the other because as many indices do. -/
theorem sameContent_eq_true {p q : Patch} : p.sameContent q = true ↔ p = q := by
  simp only [sameContent, Bool.and_eq_true, beq_iff_eq]
  constructor
  · rintro ⟨⟨⟨rows, fields⟩, indices⟩, values⟩
    have length : p.values.length = q.values.length := by
      have := congrArg List.length indices
      rw [Patch.indices, Patch.indices, List.length_map, List.length_map] at this
      rwa [Patch.values, Patch.values, List.length_map, List.length_map]
    have items : p.parts.items.toList = q.parts.items.toList := ext_columns indices ((all_bits_eq_true length).1 values)
    have numRows : p.numRows = q.numRows := by
      have := congrArg List.length rows
      rwa [length_rowStarts, length_rowStarts, Nat.add_right_cancel_iff] at this
    have starts : p.parts.starts.toList = q.parts.starts.toList := by
      rw [p.starts_eq, q.starts_eq, rows, fields, numRows]
    obtain ⟨⟨_, _, _, _, _⟩, _, _, _⟩ := p
    obtain ⟨⟨_, _, _, _, _⟩, _, _, _⟩ := q
    cases Array.toList_inj.1 items
    cases Array.toList_inj.1 starts
    cases numRows
    rfl
  · rintro rfl
    exact ⟨⟨⟨rfl, rfl⟩, rfl⟩, (all_bits_eq_true rfl).2 rfl⟩

instance : DecidableEq Patch := fun _ _ => decidable_of_iff _ sameContent_eq_true

def mix (h x : UInt64) : UInt64 :=
  let y := (h ^^^ x) * 0x9e3779b97f4a7c15
  let z := (y ^^^ (y >>> 32)) * 0xbf58476d1ce4e5b9
  z ^^^ (z >>> 29)

/-- What is hashed: the tables of starts and the indices, each with its length in front, and the value bits. -/
def hashed (p : Patch) : List UInt64 :=
  let table (t : List Nat) := t.length.toUInt64 :: t.map (·.toUInt64)
  table p.rowStarts ++ table p.fieldStarts ++ table p.indices ++ p.values.map (·.bits)

def fingerprint (p : Patch) : UInt64 := p.hashed.foldl mix 0

end Patch
end Multistage
