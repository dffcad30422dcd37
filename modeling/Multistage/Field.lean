import Multistage.Axis
/-!
# The five scalar fields of a stage

Besides its matrix rows a stage holds five lists of numbers, one number per column or per row.  They are
always listed, stored and checked in one order, that of `Field.all`, and `Field.rank` is the place in it.

A `FieldTable` holds one thing per field, which `get` answers.
-/
namespace Multistage

inductive Field where
  | colLower
  | colUpper
  | objective
  | rowLower
  | rowUpper
deriving DecidableEq, Repr

namespace Field

/-- All fields in storage order. -/
def all : List Field := [colLower, colUpper, objective, rowLower, rowUpper]

def rank : Field → Nat
  | colLower => 0
  | colUpper => 1
  | objective => 2
  | rowLower => 3
  | rowUpper => 4

theorem all_rank (f : Field) : all[f.rank]? = some f := by cases f <;> rfl

theorem mem_all (f : Field) : f ∈ all := List.mem_of_getElem? f.all_rank

theorem rank_lt (f : Field) : f.rank < 5 := by cases f <;> decide

theorem rank_inj {f g : Field} (h : f.rank = g.rank) : f = g := by
  have := f.all_rank; rw [h, g.all_rank] at this; exact (Option.some.inj this).symm

def axis : Field → Axis
  | colLower | colUpper | objective => .column
  | rowLower | rowUpper => .row

/-- Bounds may be infinite and are normalized; objective coefficients are taken as given. -/
def isBound : Field → Bool
  | objective => false
  | _ => true

/-- The name in messages about the order of writing. -/
def title : Field → String
  | colLower => "ColLower"
  | colUpper => "ColUpper"
  | objective => "Objective"
  | rowLower => "RowLower"
  | rowUpper => "RowUpper"

/-- The name in messages about lengths. -/
def phrase : Field → String
  | colLower => "column lower bounds"
  | colUpper => "column upper bounds"
  | objective => "objective"
  | rowLower => "row lower bounds"
  | rowUpper => "row upper bounds"

end Field

structure FieldTable (α : Type) where
  colLower : α
  colUpper : α
  objective : α
  rowLower : α
  rowUpper : α
deriving DecidableEq, Repr

namespace FieldTable

variable {α β : Type}

def get (t : FieldTable α) : Field → α
  | .colLower => t.colLower
  | .colUpper => t.colUpper
  | .objective => t.objective
  | .rowLower => t.rowLower
  | .rowUpper => t.rowUpper

def ofFn (f : Field → α) : FieldTable α :=
  ⟨f .colLower, f .colUpper, f .objective, f .rowLower, f .rowUpper⟩

@[simp] theorem get_ofFn (f : Field → α) (g : Field) : (ofFn f).get g = f g := by cases g <;> rfl

def update (t : FieldTable α) (f : Field) (change : α → α) : FieldTable α :=
  ofFn fun g => if g = f then change (t.get g) else t.get g

@[simp] theorem get_update (t : FieldTable α) (f g : Field) (change : α → α) :
    (t.update f change).get g = if g = f then change (t.get g) else t.get g := get_ofFn _ _

def toList (t : FieldTable α) : List α := Field.all.map t.get

end FieldTable
end Multistage
