import Multistage.Numbering
/-!
# Partition of a program into stages

Both axes numbered for the same stages, together with the integer columns of every stage.  Integer columns
are kept as places within their stage.  They are sorted and named once, however the caller listed them, so that one can be
looked up by binary search.
-/
namespace Multistage

/-- The stage of every row and every column. -/
structure Assignment where
  numStages : Nat
  rowStages : Array Nat
  colStages : Array Nat
deriving DecidableEq, Repr

structure Partition where
  numStages : Nat
  rows : Numbering
  cols : Numbering
  /-- For each stage, the places of its integer columns within the stage. -/
  integerCols : Array (List Nat)
deriving DecidableEq, Repr

namespace Partition

/-- A list without the members that the next one repeats. -/
def withoutRepeats : List Nat → List Nat
  | [] => []
  | [x] => [x]
  | x :: y :: l => if x = y then withoutRepeats (y :: l) else x :: withoutRepeats (y :: l)

/-- For each stage, the places of its listed columns within the stage: sorted, and without repetitions. -/
def integerPlaces (cols : Numbering) (numStages : Nat) (listed : List Nat) : Array (List Nat) :=
  (buckets numStages (listed.map fun j =>
    let stage := cols.stageOf.getD j 0
    (stage, cols.localPlace stage j))).map fun places => withoutRepeats places.mergeSort

/-- The first column of a list that does not exist. -/
def checkColumns (numCols : Nat) (listed : List Nat) : Except Error Unit :=
  match listed.find? (numCols ≤ ·) with
  | some j => .error (.indexOutOfRange .column j numCols)
  | none => .ok ()

def build (numRows numCols : Nat) (assignment : Assignment) (integerCols : List Nat) :
    Except Error Partition := do
  checkLength (.assignment .row) numRows assignment.rowStages.size
  checkLength (.assignment .column) numCols assignment.colStages.size
  let rows ← Numbering.ofStages .row assignment.rowStages assignment.numStages
  let cols ← Numbering.ofStages .column assignment.colStages assignment.numStages
  checkColumns numCols integerCols
  return {
    numStages := assignment.numStages
    rows, cols
    integerCols := integerPlaces cols assignment.numStages integerCols }

def numRows (p : Partition) : Nat := p.rows.size

def numCols (p : Partition) : Nat := p.cols.size

def axis (p : Partition) : Axis → Numbering
  | .row => p.rows
  | .column => p.cols

/-- The places of a stage's integer columns, ascending. -/
def integerColsOf (p : Partition) (stage : Nat) : Except Error (List Nat) := do
  checkStage stage p.numStages
  return p.integerCols.getD stage []

/-- Whether the column at a place of a stage is integer; beyond the stage there is none. -/
def isInteger (p : Partition) (stage place : Nat) : Except Error Bool := do
  return containsAscending (← p.integerColsOf stage) place

theorem checkColumns_eq_ok {numCols : Nat} {listed : List Nat} {u : Unit} :
    checkColumns numCols listed = .ok u ↔ ∀ j ∈ listed, j < numCols := by
  unfold checkColumns
  split
  · rename_i j hj
    simp only [reduceCtorEq, false_iff, Classical.not_forall, Nat.not_lt]
    exact ⟨j, List.mem_of_find?_eq_some hj, by simpa using List.find?_some hj⟩
  · rename_i h
    simpa using h

end Partition
end Multistage
