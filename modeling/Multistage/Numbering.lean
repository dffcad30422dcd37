import Multistage.Bisect
import Multistage.Bucket
import Multistage.Error
/-!
# Numbering one axis stage by stage

The rows or columns of a program are numbered twice.  The external number is the caller's; the internal one
lists stage after stage, within a stage in external order, so that every stage is a range of internal numbers
`[start t, start (t + 1))`.

Numbering takes two passes over the stages of the indices.  The first one counts the indices of each stage; the
stages start at the running sums of the counts.  The second one has a cursor for each stage, set to its start, and
gives every index the number under the cursor of its stage, which moves on by one.

The look-ups that take a caller's number check it.  `place` and `localPlace` are for numbers that have been
checked already.
-/
namespace Multistage

structure Numbering where
  axis : Axis
  /-- The stage of each external index. -/
  stageOf : Array Nat
  /-- How many indices each stage has. -/
  counts : Array Nat
  /-- Where each stage starts, and where the last one ends. -/
  starts : Array Nat
  /-- The internal number of each external index. -/
  toInternal : Array Nat
  /-- The external index of each internal number. -/
  toExternal : Array Nat
deriving DecidableEq, Repr

namespace Numbering

/-! ## The first pass -/

/-- Counts an index to its stage, if there is that stage. -/
def countIndex (axis : Axis) (numStages : Nat) (counts : Array Nat) : Nat × Nat → Except Error (Array Nat)
  | (stage, index) =>
    if numStages ≤ stage then .error (.stageOutOfRange axis index stage numStages)
    else .ok (counts.modify stage (· + 1))

/-- How many indices each stage has, or the first index with a stage that does not exist. -/
def tally (axis : Axis) (stageOf : Array Nat) (numStages : Nat) : Except Error (Array Nat) :=
  stageOf.toList.zipIdx.foldlM (countIndex axis numStages) (Array.replicate numStages 0)

/-! ## The second pass -/

/-- What the second pass writes, and the internal number that is next in each stage. -/
structure Placement where
  next : Array Nat
  toInternal : Array Nat
  toExternal : Array Nat

namespace Placement

/-- Before any of `size` indices is placed. -/
def start (starts : Array Nat) (numStages size : Nat) : Placement :=
  ⟨starts.take numStages, Array.replicate size 0, Array.replicate size 0⟩

/-- Gives an index the next number of its stage. -/
def put (p : Placement) : Nat × Nat → Placement
  | (stage, external) =>
    let internal := p.next.getD stage 0
    { next := p.next.modify stage (· + 1)
      toInternal := p.toInternal.setIfInBounds external internal
      toExternal := p.toExternal.setIfInBounds internal external }

/-- Places all indices, in external order. -/
def ofStarts (starts : Array Nat) (numStages : Nat) (stageOf : Array Nat) : Placement :=
  stageOf.toList.zipIdx.foldl put (start starts numStages stageOf.size)

end Placement

/-- Numbers an axis whose stages have been counted. -/
def ofCounts (axis : Axis) (stageOf : Array Nat) (counts : Array Nat) : Numbering :=
  let starts := (runningSums 0 counts.toList).toArray
  let placed := Placement.ofStarts starts counts.size stageOf
  { axis, stageOf, counts, starts, toInternal := placed.toInternal, toExternal := placed.toExternal }

/-- Numbers an axis, or names its first index with a stage that does not exist. -/
def ofStages (axis : Axis) (stageOf : Array Nat) (numStages : Nat) : Except Error Numbering := do
  let counts ← tally axis stageOf numStages
  return ofCounts axis stageOf counts

def size (n : Numbering) : Nat := n.toInternal.size

def numStages (n : Numbering) : Nat := n.counts.size

def place (n : Numbering) (external : Nat) : Nat := n.toInternal.getD external 0

def origin (n : Numbering) (internal : Nat) : Nat := n.toExternal.getD internal 0

def first (n : Numbering) (stage : Nat) : Nat := n.starts.getD stage 0

def localPlace (n : Numbering) (stage external : Nat) : Nat := n.place external - n.first stage

/-- The external indices of a stage in internal order. -/
def members (n : Numbering) (stage : Nat) : Array Nat := n.toExternal.extract (n.first stage) (n.first (stage + 1))

/-! ## Checked look-ups -/

def count (n : Numbering) (stage : Nat) : Except Error Nat :=
  match n.counts[stage]? with
  | some k => .ok k
  | none => .error (.unknownStage stage n.numStages)

/-- The first internal number of a stage; one past the last stage it is the number of all indices. -/
def start (n : Numbering) (stage : Nat) : Except Error Nat :=
  match n.starts[stage]? with
  | some s => .ok s
  | none => .error (.unknownStage stage n.numStages)

/-- The internal numbers of a stage: the first, and one past the last. -/
def range (n : Numbering) (stage : Nat) : Except Error (Nat × Nat) := do
  checkStage stage n.numStages
  return (n.first stage, n.first (stage + 1))

def internal (n : Numbering) (external : Nat) : Except Error Nat := do
  checkIndex n.axis external n.size
  return n.place external

def external (n : Numbering) (internal : Nat) : Except Error Nat := do
  checkIndex n.axis internal n.size
  return n.origin internal

def stage (n : Numbering) (external : Nat) : Except Error Nat := do
  checkIndex n.axis external n.size
  return n.stageOf.getD external 0

/-- The stage that owns an internal number: the last one that starts at it or before it.  Of stages that share a
start all but the last are empty. -/
def owner (n : Numbering) (internal : Nat) : Except Error Nat := do
  checkIndex n.axis internal n.size
  return bisect (fun t => n.first t ≤ internal) 0 n.starts.size - 1

end Numbering
end Multistage
