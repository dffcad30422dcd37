import Multistage.Json.Token
/-!
# JSON values

A value is read off the tokens with a stack of the lists and objects that are still open, so nesting of any depth
is one pass, and the reader recurses on the tokens alone.  Members keep their order and their repetitions: what
a repeated key means is for the reader of the value to say.
-/
namespace Multistage.Json

inductive Value where
  | null
  | bool (value : Bool)
  | number (value : Decimal)
  | text (units : List UInt16)
  | list (items : List Value)
  | object (members : List (List UInt16 × Value))

namespace Value

/-- A list or object that is still open.  What it holds so far is kept last first. -/
inductive Frame where
  | list (items : List Value)
  /-- The value of a member is due. -/
  | member (members : List (List UInt16 × Value)) (key : List UInt16)

inductive State where
  | value (stack : List Frame)
  /-- Right after the opening bracket of a list. -/
  | firstItem (stack : List Frame)
  /-- Right after the opening brace of an object. -/
  | firstKey (stack : List Frame)
  | key (members : List (List UInt16 × Value)) (stack : List Frame)
  | colon (members : List (List UInt16 × Value)) (key : List UInt16) (stack : List Frame)
  /-- A value is complete. -/
  | after (value : Value) (stack : List Frame)

def enter (stack : List Frame) : Token → Option State
  | .null => some (.after .null stack)
  | .bool b => some (.after (.bool b) stack)
  | .number d => some (.after (.number d) stack)
  | .text us => some (.after (.text us) stack)
  | .openList => some (.firstItem stack)
  | .openObject => some (.firstKey stack)
  | _ => none

def step : State → Token → Option State
  | .value stack, t => enter stack t
  | .firstItem stack, .closeList => some (.after (.list []) stack)
  | .firstItem stack, t => enter (.list [] :: stack) t
  | .firstKey stack, .closeObject => some (.after (.object []) stack)
  | .firstKey stack, .text k => some (.colon [] k stack)
  | .key ms stack, .text k => some (.colon ms k stack)
  | .colon ms k stack, .colon => some (.value (.member ms k :: stack))
  | .after v (.list vs :: stack), .comma => some (.value (.list (v :: vs) :: stack))
  | .after v (.list vs :: stack), .closeList => some (.after (.list (v :: vs).reverse) stack)
  | .after v (.member ms k :: stack), .comma => some (.key ((k, v) :: ms) stack)
  | .after v (.member ms k :: stack), .closeObject => some (.after (.object ((k, v) :: ms).reverse) stack)
  | _, _ => none

def read : State → List Token → Option Value
  | .after v [], [] => some v
  | _, [] => none
  | s, t :: ts => (step s t).bind (read · ts)

def ofTokens? (ts : List Token) : Option Value := read (.value []) ts

/-- The value that a text spells, with blanks around it at most. -/
def ofText? (cs : List Char) : Option Value := (Token.ofText? cs).bind ofTokens?

end Value
end Multistage.Json
