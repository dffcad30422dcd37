/-!
# The two axes of a program

Rows and columns are numbered, counted and assigned to stages in the same way, so whatever is said once about
an axis holds of both.
-/
namespace Multistage

inductive Axis where
  | row
  | column
deriving DecidableEq, Repr

namespace Axis

/-- The word used in messages. -/
def noun : Axis → String
  | row => "row"
  | column => "column"

end Axis
end Multistage
