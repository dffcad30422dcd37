/-!
# What can be wrong with the parts of a sparse vector or matrix

Vectors and matrices are handed over as parallel lists; each fault is one thing that such lists can get
wrong.
-/
namespace Multistage.Sparse

inductive FaultKind where
  | unsorted
  | sizeMismatch
  | outOfRange
deriving DecidableEq, Repr

namespace FaultKind

def text : FaultKind → String
  | unsorted => "unsorted"
  | sizeMismatch => "size mismatch"
  | outOfRange => "out of range"

end FaultKind

inductive Fault where
  /-- A vector with more indices than values, or fewer. -/
  | unevenVector
  | unsortedVector
  | beyondDim
  | unevenMatrix
  /-- A line that starts before the line in front of it. -/
  | descendingStarts
  /-- A start that does not fit a signed word. -/
  | hugeStart
  | noStarts
  /-- More starts than the number of lines asks for, or fewer. -/
  | startCount
  /-- More entries than lie between the first start and the last, or fewer. -/
  | entryCount
  | unsortedLine
  | beyondWidth
deriving DecidableEq, Repr

namespace Fault

def kind : Fault → FaultKind
  | unevenVector | beyondDim | unevenMatrix | noStarts | startCount | entryCount => .sizeMismatch
  | unsortedVector | descendingStarts | unsortedLine => .unsorted
  | hugeStart | beyondWidth => .outOfRange

def text : Fault → String
  | unevenVector => "indices and data do not have compatible lengths"
  | unsortedVector => "Unsorted indices"
  | beyondDim => "indices larger than vector size"
  | unevenMatrix => "data and indices have different sizes"
  | descendingStarts => "Unsorted indptr"
  | hugeStart => "An indptr value is larger than allowed"
  | noStarts => "An indptr should have its len >= 1"
  | startCount => "Indptr length does not match dimension"
  | entryCount => "Indices length and inpdtr's nnz do not match"
  | unsortedLine => "Indices are not sorted"
  | beyondWidth => "Indice is larger than inner dimension"

def message (f : Fault) : String := s!"Structure Error ({f.kind.text}): {f.text}"

end Fault
end Multistage.Sparse
