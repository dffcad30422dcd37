import Multistage.Field
import Multistage.Sparse.Fault
/-!
# Handles and errors

An error is a cause: the offending item with the numbers that its message needs, no text.  The wording is in
`Error.message` alone, and `Error.kind` sorts the causes into bad input, misuse of what exists, and lack of
storage.

The checks at the end say when the three commonest causes arise, and `attempt` takes an outcome into an action:
a failure stops the action and leaves its state as it is.
-/
namespace Multistage

structure TemplateId where
  index : Nat
deriving DecidableEq, Repr

/-- A slot and the generation of its occupant: a slot is used again after its node is freed, and then under the next
generation. -/
structure NodeId where
  index : Nat
  generation : UInt32
deriving DecidableEq, Repr

def TemplateId.display (id : TemplateId) : String := s!"template#{id.index}"

def NodeId.display (id : NodeId) : String := s!"node#{id.index}.{id.generation.toNat}"

/-- The lists whose length is checked. -/
inductive Measured where
  | field (field : Field)
  | assignment (axis : Axis)
  | copyBuffer
  | coreRow
  | mergeBase
  | patchRows
  | vectorDim
deriving DecidableEq, Repr

def Measured.phrase : Measured → String
  | field f => f.phrase
  | assignment axis => s!"{axis.noun} stage assignment"
  | copyBuffer => "copy buffer"
  | coreRow => "dense core row"
  | mergeBase => "dense merge base"
  | patchRows => "delta buffer rows"
  | vectorDim => "sparse vector dimension"

inductive Error where
  /-- A row or column is assigned to a stage that the program does not have. -/
  | stageOutOfRange (axis : Axis) (index stage numStages : Nat)
  | lengthMismatch (what : Measured) (expected actual : Nat)
  | indexOutOfRange (axis : Axis) (index count : Nat)
  | matrixShape (expected actual : Nat × Nat)
  | malformed (fault : Sparse.Fault)
  | unknownStage (stage numStages : Nat)
  /-- A node is used with a template other than its own. -/
  | foreignTemplate (anchor given : TemplateId)
  /-- A core node stands for the template itself and has nothing to merge. -/
  | coreMerge (stage : Nat)
  /-- A core node lives as long as its template. -/
  | coreRelease (stage : Nat)
  | unknownNode (id : NodeId)
  | unknownTemplate (id : TemplateId)
  /-- A field is written again, or after a later one. -/
  | fieldOrder (field : Field)
  /-- Entries were pushed after the last closed row. -/
  | openRow (entries : Nat)
  | reservation (entries : Nat)
deriving DecidableEq, Repr

namespace Error

inductive Kind where
  | configuration
  | consistency
  | allocation
deriving DecidableEq, Repr

def kind : Error → Kind
  | stageOutOfRange .. | lengthMismatch .. | indexOutOfRange .. | matrixShape .. | malformed .. => .configuration
  | unknownStage .. | foreignTemplate .. | coreMerge .. | coreRelease .. | unknownNode .. | unknownTemplate ..
  | fieldOrder .. | openRow .. => .consistency
  | reservation .. => .allocation

def message : Error → String
  | stageOutOfRange axis index stage numStages =>
    s!"{axis.noun} {index} assigned to stage {stage}, but the program has {numStages} stages"
  | lengthMismatch what expected actual => s!"{what.phrase}: expected length {expected}, got {actual}"
  | indexOutOfRange axis index count => s!"{axis.noun} index {index} out of range (count {count})"
  | matrixShape expected actual =>
    s!"matrix shape ({actual.1}, {actual.2}) does not match snapshot shape ({expected.1}, {expected.2})"
  | malformed fault => s!"sparse structure error: {fault.message}"
  | unknownStage stage numStages => s!"stage {stage} does not exist in a template with {numStages} stages"
  | foreignTemplate anchor given => s!"node is anchored to {anchor.display}, but was used with {given.display}"
  | coreMerge stage => s!"core node of stage {stage} cannot be combined"
  | coreRelease stage => s!"core node of stage {stage} is owned by its template and cannot be released"
  | unknownNode id => s!"unknown or released node handle {id.display}"
  | unknownTemplate id => s!"unknown template handle {id.display}"
  | fieldOrder field => s!"{field.title} section written out of order"
  | openRow entries => s!"{entries} matrix entries pushed after the last closed row"
  | reservation entries => s!"failed to reserve storage for {entries} entries"

end Error

def checkLength (what : Measured) (expected actual : Nat) : Except Error Unit :=
  if actual = expected then .ok () else .error (.lengthMismatch what expected actual)

def checkIndex (axis : Axis) (index count : Nat) : Except Error Unit :=
  if index < count then .ok () else .error (.indexOutOfRange axis index count)

def checkStage (stage numStages : Nat) : Except Error Unit :=
  if stage < numStages then .ok () else .error (.unknownStage stage numStages)

@[simp] theorem checkLength_eq_ok {what : Measured} {expected actual : Nat} {u : Unit} :
    checkLength what expected actual = .ok u ↔ actual = expected := by
  unfold checkLength; split <;> simp [*]

@[simp] theorem checkIndex_eq_ok {axis : Axis} {index count : Nat} {u : Unit} :
    checkIndex axis index count = .ok u ↔ index < count := by
  unfold checkIndex; split <;> simp [*]

@[simp] theorem checkStage_eq_ok {stage numStages : Nat} {u : Unit} :
    checkStage stage numStages = .ok u ↔ stage < numStages := by
  unfold checkStage; split <;> simp [*]

/-- An outcome as an action that does not touch the state. -/
def attempt {σ α : Type} : Except Error α → EStateM Error σ α
  | .ok x => pure x
  | .error e => throw e

@[simp] theorem run_attempt_ok {σ α : Type} (x : α) (s : σ) : (attempt (.ok x)).run s = .ok x s := rfl

@[simp] theorem run_attempt_error {σ α : Type} (e : Error) (s : σ) :
    (attempt (.error e) : EStateM Error σ α).run s = .error e s := rfl

end Multistage
