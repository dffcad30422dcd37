import Multistage.Json.Codec
import Multistage.Options
/-!
# Options as JSON

Options are written as an object of three members and read from an object or from a list.  In an object every
member may be missing, unknown members are passed over, and only a known key must not be repeated; in a
list the values stand in the order of the members, and the last ones may be missing.  What is missing has its
default value.

All of that is the same for every codec, which writes and reads the text and the doubles.
-/
namespace Multistage

open Json

def MergeRule.name : MergeRule → String
  | replace => "replace"
  | add => "add"

namespace Options

def ruleKey : String := "combine_rule"

def infinityKey : String := "infinity"

def dropZerosKey : String := "drop_explicit_zeros"

def ruleNamed? (us : List UInt16) : Option MergeRule :=
  [MergeRule.replace, .add].find? fun r => us = units r.name

/-- A rule is its name, or an object with the name as its only key and nothing under it. -/
def rule? : Value → Option MergeRule
  | .text us => ruleNamed? us
  | .object [(us, .null)] => ruleNamed? us
  | _ => none

def bool? : Value → Option Bool
  | .bool b => some b
  | _ => none

/-- The value under a key: `default` if there is none, and nothing if it is no `α` or the key is repeated. -/
def member? {α : Type} (members : List (List UInt16 × Value)) (key : String) (read : Value → Option α)
    (default : α) : Option α :=
  match members.filter fun m => m.1 = units key with
  | [] => some default
  | [m] => read m.2
  | _ => none

section Codec

variable (codec : Codec)

def ofMembers? (members : List (List UInt16 × Value)) : Option Options :=
  if members.all fun m => isPaired m.1 then do
    let d : Options := {}
    return {
      rule := ← member? members ruleKey rule? d.rule
      infinity := ← member? members infinityKey codec.toDouble? d.infinity
      dropZeros := ← member? members dropZerosKey bool? d.dropZeros }
  else none

def ofItems? (items : List Value) : Option Options :=
  match items with
  | [] => some {}
  | [r] => do return { rule := ← rule? r }
  | [r, i] => do return { rule := ← rule? r, infinity := ← codec.toDouble? i }
  | [r, i, z] => do return { rule := ← rule? r, infinity := ← codec.toDouble? i, dropZeros := ← bool? z }
  | _ => none

def ofValue? : Value → Option Options
  | .object members => ofMembers? codec members
  | .list items => ofItems? codec items
  | _ => none

def ofTextBy? (s : String) : Option Options := (codec.read? s).bind (ofValue? codec)

/-- What is written for options. -/
def members (o : Options) : List (String × Scalar) :=
  [(ruleKey, .text o.rule.name), (infinityKey, codec.ofDouble o.infinity), (dropZerosKey, .bool o.dropZeros)]

def toTextBy (o : Options) : String := codec.write (o.members codec)

end Codec

def ofText? : String → Option Options := ofTextBy? plain

def toText : Options → String := toTextBy plain

end Options
end Multistage
