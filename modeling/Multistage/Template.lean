import Multistage.Buffer
import Multistage.Options
import Multistage.Snapshot
/-!
# Templates

A template is a snapshot cut into stages and renumbered.  Each stage has the fields of its own rows and columns in
internal order, bounds normalized, and its matrix rows over *all* columns, since a row may reach into other
stages.

Renumbering permutes the columns of a row, so its entries are gathered anew into a line
(`Sparse.lastWrites`): no two of them fall on one column.
-/
namespace Multistage

open Sparse

/-- The data of one stage in internal order. -/
structure StageData where
  fields : FieldTable (Array Binary64)
  /-- The rows of the stage by all columns, kept by row. -/
  matrix : Matrix
deriving DecidableEq

structure Template where
  id : TemplateId
  partition : Partition
  options : Options
  stages : Array StageData
deriving DecidableEq

namespace Template

/-- A field of one stage: the values of its members in internal order. -/
def cutField (partition : Partition) (options : Options) (stage : Nat) (f : Field) (values : Array Binary64) :
    Array Binary64 :=
  ((partition.axis f.axis).members stage).map fun e => options.stored f (values.getD e 0)

/-- A row with its columns renumbered. -/
def renumber (cols : Numbering) (row : List Entry) : List Entry :=
  lastWrites (row.map fun e => ⟨cols.place e.index, e.value⟩)

def cutMatrix (partition : Partition) (byRow : Matrix) (stage : Nat) : Except Fault Matrix :=
  Matrix.ofLines? .byRow byRow.numCols
    ((partition.rows.members stage).map fun e => renumber partition.cols (byRow.line e))

def cutStage (partition : Partition) (options : Options) (fields : FieldTable (Array Binary64)) (byRow : Matrix)
    (stage : Nat) : Except Error StageData := do
  let matrix ← (cutMatrix partition byRow stage).mapError .malformed
  return { matrix, fields := .ofFn fun f => cutField partition options stage f (fields.get f) }

def build (id : TemplateId) (snapshot : Snapshot) (assignment : Assignment) (options : Options) :
    Except Error Template := do
  snapshot.check
  let partition ← Partition.build snapshot.numRows snapshot.numCols assignment snapshot.integerCols
  let byRow := snapshot.matrix.byRow
  let stages ← (List.range partition.numStages).mapM (cutStage partition options snapshot.fields byRow)
  return { id, partition, options, stages := stages.toArray }

def numStages (t : Template) : Nat := t.partition.numStages

def numRows (t : Template) : Nat := t.partition.numRows

def numCols (t : Template) : Nat := t.partition.numCols

def stage (t : Template) (stage : Nat) : Except Error StageData :=
  match t.stages[stage]? with
  | some data => .ok data
  | none => .error (.unknownStage stage t.stages.size)

def fillField (t : Template) (stage : Nat) (f : Field) : BufferM Unit := do
  let data ← attempt (t.stage stage)
  BufferM.copyFrom (data.fields.get f)

def matrix (t : Template) (stage : Nat) : Except Error Matrix := return (← t.stage stage).matrix

/-- A row of a stage, counted within the stage; its columns have internal numbers. -/
def row (t : Template) (stage row : Nat) : Except Error SparseVector := do
  let matrix ← t.matrix stage
  checkIndex .row row matrix.numRows
  return matrix.vector row

def matrixSize (t : Template) (stage : Nat) : Except Error Nat := return (← t.matrix stage).size

def denseRow (t : Template) (stage row : Nat) : Except Error (Array Binary64) :=
  return (← t.row stage row).fill 0

end Template
end Multistage
