import Multistage.Overrides
import Multistage.Patch.Writer
import Multistage.Template
/-!
# Nodes

A node of the scenario tree is its template's stage with a patch, or that stage itself: a *core* node stands for the
template and has no patch.  A node knows its template by handle only, and every operation that needs the
template is given one and refuses any other than its own.

A scenario node is built from overrides by keeping those of its stage, in local numbers, and reducing each row
and each field to its last writes.  So the patch depends on what was last said, not on how.
-/
namespace Multistage

open Sparse

/-- What a node has of its own. -/
inductive Node.Content where
  | core
  | scenario (patch : Patch)
deriving DecidableEq

structure Node where
  template : TemplateId
  stage : Nat
  rule : MergeRule
  dropZeros : Bool
  /-- All columns of the program, and the rows and columns of the stage. -/
  numCols : Nat
  rowCount : Nat
  colCount : Nat
  content : Node.Content
  /-- The rows that have been asked for in dense form. -/
  denseRows : Std.TreeMap Nat (Array Binary64)

/-- What became of the overrides that a node was built from. -/
structure Tally where
  estimate : Nat
  written : Nat
  /-- The overrides of the stage that a later one of the same position replaced. -/
  duplicates : Nat
deriving DecidableEq, Repr

/-- The overrides of other stages. -/
def Tally.dropped (t : Tally) : Nat := t.estimate - t.written - t.duplicates

namespace Node

def anchored (core : Template) (stage : Nat) (content : Content) : Except Error Node := do
  let rowCount ← core.partition.rows.count stage
  let colCount ← core.partition.cols.count stage
  return {
    template := core.id, stage
    rule := core.options.rule
    dropZeros := core.options.dropZeros
    numCols := core.numCols
    rowCount, colCount, content
    denseRows := ∅ }

def core (template : Template) (stage : Nat) : Except Error Node := anchored template stage .core

/-! ## Building a scenario node -/

/-- Fails at the first override whose row or column does not exist. -/
def checkCells (core : Template) (cells : List Matrix.Cell) : Except Error Unit :=
  cells.forM fun c => do
    checkIndex .row c.row core.numRows
    checkIndex .column c.col core.numCols

/-- Fails at the first override of a field whose row or column does not exist. -/
def checkEntries (core : Template) (axis : Axis) (entries : List Entry) : Except Error Unit :=
  entries.forM fun e => checkIndex axis e.index (core.partition.axis axis).size

def owns (n : Numbering) (stage index : Nat) : Bool := n.stageOf[index]? = some stage

/-- The overrides of a stage's rows: the row within the stage, and the entry with the internal column. -/
def ownCells (core : Template) (stage : Nat) (cells : List Matrix.Cell) : List (Nat × Entry) :=
  let rows := core.partition.rows
  (cells.filter fun c => owns rows stage c.row).map fun c =>
    (rows.localPlace stage c.row, ⟨core.partition.cols.place c.col, c.value⟩)

/-- The overrides of a stage's part of a field, at local places and as they are stored. -/
def ownEntries (core : Template) (stage : Nat) (f : Field) (entries : List Entry) : List Entry :=
  let numbering := core.partition.axis f.axis
  (entries.filter fun e => owns numbering stage e.index).map fun e =>
    ⟨numbering.localPlace stage e.index, core.options.stored f e.value⟩

/-- Checks the overrides of one field and writes those of the stage. -/
def writeField (core : Template) (stage : Nat) (overrides : Overrides) (w : FieldWriter) (f : Field) :
    Except Error FieldWriter := do
  checkEntries core f.axis (overrides.fields.get f)
  w.write f (lastWrites (ownEntries core stage f (overrides.fields.get f)))

/-- Builds a node from overrides, and counts what became of them.  No storage is had for as many entries as `limit`. -/
def ofOverridesBy (limit : Nat) (core : Template) (stage : Nat) (overrides : Overrides) :
    Except Error (Node × Tally) := do
  checkStage stage core.numStages
  let rowCount ← core.partition.rows.count stage
  let writer ← RowWriter.withCapacityBy limit overrides.size rowCount
  checkCells core overrides.matrix
  let rows := buckets rowCount (ownCells core stage overrides.matrix)
  let writer := rows.foldl (fun w row => w.writeRow (lastWrites row)) writer
  let fields ← Field.all.foldlM (writeField core stage overrides) (← writer.toFields)
  let patch := fields.finish
  let node ← anchored core stage (.scenario patch)
  let owned := (ownCells core stage overrides.matrix).length +
    (Field.all.flatMap fun f => ownEntries core stage f (overrides.fields.get f)).length
  return (node, { estimate := overrides.size, written := patch.size, duplicates := owned - patch.size })

def ofOverrides : Template → Nat → Overrides → Except Error (Node × Tally) := ofOverridesBy RowWriter.addressable

/-! ## What a node is -/

def isCore (n : Node) : Bool :=
  match n.content with
  | .core => true
  | .scenario _ => false

def patch? (n : Node) : Option Patch :=
  match n.content with
  | .core => none
  | .scenario patch => some patch

def size (n : Node) : Nat := (n.patch?.map (·.size)).getD 0

/-- The hash of a node's patch; a core node has none to hash. -/
def key (hash : Patch → UInt64) (n : Node) : UInt64 := (n.patch?.map hash).getD 0

def extent (n : Node) : Axis → Nat
  | .row => n.rowCount
  | .column => n.colCount

/-- A node's own entries of a field, at local places; a core node has none to show. -/
def fieldOverrides (n : Node) (f : Field) : Except Error (Option SparseVector) :=
  match n.content with
  | .core => .ok none
  | .scenario patch =>
    ((SparseVector.ofEntries? (n.extent f.axis) (patch.field f)).mapError .malformed).map some

def checkAnchor (n : Node) (core : Template) : Except Error Unit :=
  if core.id = n.template then .ok () else .error (.foreignTemplate n.template core.id)

def checkRow (n : Node) (row : Nat) : Except Error Unit := checkIndex .row row n.rowCount

end Node
end Multistage
