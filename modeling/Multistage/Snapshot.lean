import Multistage.Partition
import Multistage.Sparse.Matrix
/-!
# Problem snapshots

The deterministic problem that a template is built from: its five fields in external order, its matrix, and which
columns are integer.  Nothing is assumed of a snapshot; `check` finds the first part that does not fit
the declared numbers of rows and columns.
-/
namespace Multistage

structure Snapshot where
  numRows : Nat
  numCols : Nat
  fields : FieldTable (Array Binary64)
  matrix : Matrix
  integerCols : List Nat
deriving DecidableEq

namespace Snapshot

/-- The value of a field where none is given: rows are free, columns are not negative and cost nothing. -/
def defaultValue : Field → Binary64
  | .colLower => 0
  | .colUpper => .posInf
  | .objective => 0
  | .rowLower => .negInf
  | .rowUpper => .posInf

def extent (numRows numCols : Nat) : Axis → Nat
  | .row => numRows
  | .column => numCols

def ofMatrix (numRows numCols : Nat) (matrix : Matrix) : Snapshot where
  numRows := numRows
  numCols := numCols
  fields := .ofFn fun f => Array.replicate (extent numRows numCols f.axis) (defaultValue f)
  matrix := matrix
  integerCols := []

/-- The order in which the lengths of the fields are checked. -/
def checkOrder : List Field := [.rowLower, .rowUpper, .colLower, .colUpper, .objective]

def checkField (s : Snapshot) (f : Field) : Except Error Unit :=
  checkLength (.field f) (extent s.numRows s.numCols f.axis) (s.fields.get f).size

def checkShape (s : Snapshot) : Except Error Unit :=
  if s.matrix.numRows = s.numRows ∧ s.matrix.numCols = s.numCols then .ok ()
  else .error (.matrixShape (s.numRows, s.numCols) (s.matrix.numRows, s.matrix.numCols))

def check (s : Snapshot) : Except Error Unit := do
  checkOrder.forM s.checkField
  s.checkShape
  Partition.checkColumns s.numCols s.integerCols

end Snapshot
end Multistage
