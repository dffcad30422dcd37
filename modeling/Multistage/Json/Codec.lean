import Multistage.Json.Value
/-!
# Writing and reading JSON

A program that keeps its settings in JSON writes an object of scalars and reads whatever value a text spells.  The text
in between is the business of a library, and so is how a double is written, since JSON knows decimals only.  `Codec` is
what such a library offers; the code that turns settings into members and back is written for any codec.

`plain` is the codec that runs here: doubles are written in as few digits as lead back to them, and read as the
nearest double, which must be finite.
-/
namespace Multistage.Json

/-- What is written under a key. -/
inductive Scalar where
  | null
  | bool (value : Bool)
  | number (value : Decimal)
  | text (value : String)
deriving DecidableEq, Repr

structure Codec where
  /-- What a double is written as. -/
  ofDouble : Binary64 → Scalar
  /-- The double that a value is read as. -/
  toDouble? : Value → Option Binary64
  /-- The text of an object with the given members. -/
  write : List (String × Scalar) → String
  read? : String → Option Value

namespace Scalar

/-- The value that is read for a scalar. -/
def value : Scalar → Value
  | null => .null
  | bool b => .bool b
  | number d => .number d
  | text s => .text (units s)

def token : Scalar → Token
  | null => .null
  | bool b => .bool b
  | number d => .number d
  | text s => .text (units s)

end Scalar

/-- What is still to be written of an object behind one of its members. -/
def laterTokens : List (String × Scalar) → List Token
  | [] => [.closeObject]
  | (key, s) :: members => .comma :: .text (units key) :: .colon :: s.token :: laterTokens members

def objectTokens : List (String × Scalar) → List Token
  | [] => [.openObject, .closeObject]
  | (key, s) :: members => .openObject :: .text (units key) :: .colon :: s.token :: laterTokens members

def plain : Codec where
  ofDouble x := if x.isFinite then .number (.shortest x) else .null
  toDouble?
    | .number d => if d.toBinary64.isFinite then some d.toBinary64 else none
    | _ => none
  write members := String.ofList ((objectTokens members).flatMap Token.toText)
  read? s := Value.ofText? s.toList

end Multistage.Json
