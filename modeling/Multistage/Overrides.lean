import Multistage.Field
import Multistage.Sparse.Matrix
/-!
# Overrides of a node

What a node says differs from the template, in external numbers and in the order of saying it.  Ids are not yet
checked, may belong to any stage and may be named again; of several values for one position the last one
counts.
-/
namespace Multistage

open Sparse

structure Overrides where
  matrix : List Matrix.Cell := []
  fields : FieldTable (List Entry) := .ofFn fun _ => []
deriving DecidableEq, Repr

namespace Overrides

def setCell (o : Overrides) (row col : Nat) (value : Binary64) : Overrides :=
  { o with matrix := o.matrix ++ [⟨row, col, value⟩] }

def set (o : Overrides) (f : Field) (index : Nat) (value : Binary64) : Overrides :=
  { o with fields := o.fields.update f (· ++ [⟨index, value⟩]) }

/-- What was last said of a matrix position. -/
def cell? (o : Overrides) (row col : Nat) : Option Binary64 :=
  (o.matrix.reverse.find? fun c => c.row = row ∧ c.col = col).map (·.value)

def value? (o : Overrides) (f : Field) (index : Nat) : Option Binary64 := lastWrite? (o.fields.get f) index

def size (o : Overrides) : Nat := o.matrix.length + o.fields.toList.flatten.length

def isEmpty (o : Overrides) : Bool := o.size = 0

end Overrides
end Multistage
