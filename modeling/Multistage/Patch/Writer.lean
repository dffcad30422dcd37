import Multistage.Error
import Multistage.Patch
/-!
# Writing a patch

Rows are written first, entry by entry, each closed by `endRow`; then the fields, each whole and in storage order.
The two phases are two types, so no row can be written once the fields have begun, and `toFields` is where
the number of rows is checked against the declared one.

A field is closed as soon as it is written, so the number of closed parts says which fields are still to come.
A skipped field is closed empty when a later one is written, or at the end.

Storage is asked for before anything is written.  How much there is depends on the machine, and is an argument.
-/
namespace Multistage

open Sparse

structure RowWriter where
  parts : Parts Entry
  /-- The number of rows that have to be closed. -/
  numRows : Nat

structure FieldWriter where
  parts : Parts Entry
  numRows : Nat
  count_le : parts.count ≤ numRows + 5
  complete : parts.pending = []

namespace RowWriter

/-- Room for some items, which there is below a limit. -/
def reserve (limit items : Nat) : Except Error Unit :=
  if items < limit then .ok () else .error (.reservation items)

/-- A writer with room for some entries, and for the starts of the declared rows. -/
def withCapacityBy (limit entries numRows : Nat) : Except Error RowWriter := do
  reserve limit entries
  reserve limit (numRows + 1)
  return { parts := .empty, numRows }

/-- The limit where nothing is known of the memory at hand: what can be addressed. -/
def addressable : Nat := 0x800000000000000

def withCapacity : Nat → Nat → Except Error RowWriter := withCapacityBy addressable

def push (w : RowWriter) (e : Entry) : RowWriter := { w with parts := w.parts.push e }

def endRow (w : RowWriter) : RowWriter := { w with parts := w.parts.close }

def writeRow (w : RowWriter) (row : List Entry) : RowWriter := (row.foldl push w).endRow

def size (w : RowWriter) : Nat := w.parts.items.size

/-- Goes on to the fields, if the declared rows and nothing else has been written. -/
def toFields (w : RowWriter) : Except Error FieldWriter :=
  if count : w.parts.count = w.numRows then
    if complete : w.parts.pending = [] then .ok { w with count_le := by omega, complete }
    else .error (.openRow w.parts.pending.length)
  else .error (.lengthMismatch .patchRows w.numRows w.parts.count)

end RowWriter

namespace FieldWriter

def write (w : FieldWriter) (f : Field) (entries : List Entry) : Except Error FieldWriter :=
  if inTime : w.parts.count ≤ w.numRows + f.rank then
    .ok {
      parts := ((w.parts.closeUntil (w.numRows + f.rank)).pushAll entries).close
      numRows := w.numRows
      count_le := by
        have := f.rank_lt
        rw [Parts.count_close, Parts.count_pushAll, Parts.count_closeUntil]; omega
      complete := Parts.pending_close _ }
  else .error (.fieldOrder f)

def size (w : FieldWriter) : Nat := w.parts.items.size

/-- Closes the fields that have not been written. -/
def finish (w : FieldWriter) : Patch where
  parts := w.parts.closeUntil (w.numRows + 5)
  numRows := w.numRows
  count := by have := w.count_le; rw [Parts.count_closeUntil]; omega
  complete := Parts.pending_closeUntil w.complete _

end FieldWriter
end Multistage
