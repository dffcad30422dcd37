import Multistage.Node
/-!
# Reconstructing a node's data

The template's values are taken first, and the node's own entries are merged onto them by the program's rule.  For a
core node the template's values are the answer.

Every operation checks the template before anything else, and every check comes before the first write.
-/
namespace Multistage

open Sparse

namespace Node

def fillField (n : Node) (core : Template) (f : Field) : BufferM Unit := do
  attempt (n.checkAnchor core)
  core.fillField n.stage f
  match n.content with
  | .core => pure ()
  | .scenario patch => modify (n.rule.scatter · (patch.field f))

/-! ## Stored rows -/

def asRow (n : Node) (entries : List Entry) : Except Error SparseVector :=
  (SparseVector.ofEntries? n.numCols entries).mapError .malformed

/-- What is stored for a row of the stage: the node's own entries, or the template's row for a core node. -/
def storedRow (n : Node) (core : Template) (row : Nat) : Except Error SparseVector := do
  n.checkAnchor core
  n.checkRow row
  match n.content with
  | .core => core.row n.stage row
  | .scenario patch => n.asRow (patch.row row)

def storedSize (n : Node) (core : Template) : Except Error Nat := do
  n.checkAnchor core
  match n.content with
  | .core => core.matrixSize n.stage
  | .scenario patch => return patch.matrixSize

/-- What is stored for a row, with zeros elsewhere.  It is computed when first asked for and then kept by the
node. -/
def denseRow (core : Template) (row : Nat) : EStateM Error Node (Array Binary64) := do
  let n ← get
  attempt (n.checkAnchor core)
  match n.denseRows[row]? with
  | some dense => return dense
  | none =>
    let entries ← attempt (n.storedRow core row)
    let dense := entries.fill 0
    set { n with denseRows := n.denseRows.insert row dense }
    return dense

/-! ## Merged rows -/

/-- The node's own entries of a row; a core node has none to merge. -/
def ownRow (n : Node) (row : Nat) : Except Error (List Entry) := do
  match n.content with
  | .core => throw (.coreMerge n.stage)
  | .scenario patch =>
    n.checkRow row
    return patch.row row

def mergeSparse (n : Node) (row : Nat) (base : SparseVector) : Except Error SparseVector := do
  let own ← n.asRow (← n.ownRow row)
  return n.rule.mergeSparse base own n.dropZeros

def mergeDense (n : Node) (row : Nat) : BufferM Unit := do
  let own ← attempt (n.ownRow row)
  attempt (checkLength .coreRow n.numCols (← get).size)
  modify (n.rule.scatter · own)

/-- A row of the node: the template's row with the node's merged onto it. -/
def mergedRow (n : Node) (core : Template) (row : Nat) : Except Error SparseVector := do
  n.checkAnchor core
  let base ← core.row n.stage row
  if n.isCore then return base else n.mergeSparse row base

/-- The matrix rows of the node by all columns. -/
def mergedMatrix (n : Node) (core : Template) : Except Error Matrix := do
  n.checkAnchor core
  if n.isCore then core.matrix n.stage
  else
    let rows ← (List.range n.rowCount).mapM (n.mergedRow core)
    (Matrix.ofLines? .byRow n.numCols (rows.map (·.entries)).toArray).mapError .malformed

end Node
end Multistage
