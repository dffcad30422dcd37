import Multistage.Decimal.Text
import Multistage.Json.Text
/-!
# Tokens of JSON

The scanner goes through the characters once, with a mode that says what it is in the middle of; each
character gives the next mode and the tokens it completes.  Everything outside of texts that is neither blank nor
punctuation is a word, taken as long as possible and then read as a name or a number, so two words are never
told apart without something between them.
-/
namespace Multistage.Json

inductive Token where
  | openList
  | closeList
  | openObject
  | closeObject
  | colon
  | comma
  | null
  | bool (value : Bool)
  | number (value : Decimal)
  | text (units : List UInt16)
deriving DecidableEq, Repr

namespace Token

def isBlank (c : Char) : Bool := c = ' ' ∨ c = '\t' ∨ c = '\n' ∨ c = '\x0d'

def punctuation? : Char → Option Token
  | '[' => some openList
  | ']' => some closeList
  | '{' => some openObject
  | '}' => some closeObject
  | ':' => some colon
  | ',' => some comma
  | _ => none

def ofWord? (cs : List Char) : Option Token :=
  if cs = "null".toList then some null
  else if cs = "true".toList then some (bool true)
  else if cs = "false".toList then some (bool false)
  else (Decimal.ofText? cs).map number

def escape? : Char → Option UInt16
  | '"' => some 0x22
  | '\\' => some 0x5c
  | '/' => some 0x2f
  | 'b' => some 0x08
  | 'f' => some 0x0c
  | 'n' => some 0x0a
  | 'r' => some 0x0d
  | 't' => some 0x09
  | _ => none

def hexValue? (c : Char) : Option Nat :=
  if c.isDigit then some (c.toNat - '0'.toNat)
  else if 'a' ≤ c ∧ c ≤ 'f' then some (c.toNat - 'a'.toNat + 10)
  else if 'A' ≤ c ∧ c ≤ 'F' then some (c.toNat - 'A'.toNat + 10)
  else none

/-- What the scanner is in the middle of.  Characters and units read so far are kept last first. -/
inductive Mode where
  | between
  | word (cs : List Char)
  | text (us : List UInt16)
  | escape (us : List UInt16)
  /-- Within the digits of a numeric escape, of which some are still to come. -/
  | hex (us : List UInt16) (left value : Nat)
deriving DecidableEq, Repr

def start (c : Char) : Mode × List Token :=
  if isBlank c then (.between, [])
  else if c = '"' then (.text [], [])
  else match punctuation? c with
    | some t => (.between, [t])
    | none => (.word [c], [])

/-- A character ends a word if it is blank, a quote or punctuation. -/
def endsWord (c : Char) : Bool := isBlank c || c = '"' || (punctuation? c).isSome

/-- The next mode, and the tokens that a character completes. -/
def step : Mode → Char → Option (Mode × List Token)
  | .between, c => some (start c)
  | .word cs, c =>
    if endsWord c then (ofWord? cs.reverse).map fun t => ((start c).1, t :: (start c).2)
    else some (.word (c :: cs), [])
  | .text us, c =>
    if c = '"' then some (.between, [text us.reverse])
    else if c = '\\' then some (.escape us, [])
    else if c < ' ' then none
    else some (.text ((unitsOfChar c).reverse ++ us), [])
  | .escape us, c =>
    if c = 'u' then some (.hex us 4 0, [])
    else (escape? c).map fun u => (.text (u :: us), [])
  | .hex us left value, c => (hexValue? c).map fun d =>
    if left = 1 then (.text ((16 * value + d).toUInt16 :: us), []) else (.hex us (left - 1) (16 * value + d), [])

def scan : Mode → List Char → Option (List Token)
  | .between, [] => some []
  | .word cs, [] => (ofWord? cs.reverse).map ([·])
  | _, [] => none
  | mode, c :: cs => (step mode c).bind fun next => (scan next.1 cs).map (next.2 ++ ·)

def ofText? (cs : List Char) : Option (List Token) := scan .between cs

def toText : Token → List Char
  | openList => ['[']
  | closeList => [']']
  | openObject => ['{']
  | closeObject => ['}']
  | colon => [':']
  | comma => [',']
  | null => "null".toList
  | bool value => (if value then "true" else "false").toList
  | number value => value.toText
  | text us => quote us

end Token
end Multistage.Json
