import Multistage.Decimal
/-!
# Decimals as text

The written form is a sign only when negative, a whole part without superfluous zeros, and optionally a
point with places and an exponent.  A reader takes the whole text or nothing; `digitRun` is the only
scanner, and the places of the fraction are counted off the exponent, so no digit is lost.
-/
namespace Multistage.Decimal

/-- The digits at the head of a text, and what follows them. -/
def digitRun (cs : List Char) : List Char × List Char := (cs.takeWhile Char.isDigit, cs.dropWhile Char.isDigit)

def sign : List Char → Bool × List Char
  | '-' :: cs => (true, cs)
  | cs => (false, cs)

/-- A single zero, or digits that do not start with one. -/
def isWhole : List Char → Bool
  | [] => false
  | ['0'] => true
  | c :: _ => c ≠ '0'

/-- The places after a point, of which there is at least one if there is a point. -/
def fraction? : List Char → Option (List Char × List Char)
  | '.' :: cs => if (digitRun cs).1 = [] then none else some (digitRun cs)
  | cs => some ([], cs)

/-- Digits up to the end of the text. -/
def lastDigits? (cs : List Char) : Option Nat :=
  if cs = [] ∨ cs.all Char.isDigit = false then none else some (Nat.ofDigitChars 10 cs 0)

def signedDigits? : List Char → Option Int
  | '-' :: cs => (lastDigits? cs).map fun n => -(n : Int)
  | '+' :: cs => (lastDigits? cs).map fun n => (n : Int)
  | cs => (lastDigits? cs).map fun n => (n : Int)

/-- The exponent, which ends the text; zero if there is none. -/
def exponent? : List Char → Option Int
  | [] => some 0
  | c :: cs => if c = 'e' ∨ c = 'E' then signedDigits? cs else none

def ofText? (cs : List Char) : Option Decimal := do
  let (negative, cs) := sign cs
  let (whole, cs) := digitRun cs
  if isWhole whole then
    let (fraction, cs) ← fraction? cs
    let exponent ← exponent? cs
    return { negative, digits := Nat.ofDigitChars 10 (whole ++ fraction) 0,
             exponent := exponent - fraction.length }
  else none

def exponentText : Int → List Char
  | .ofNat 0 => []
  | .ofNat e => 'e' :: Nat.toDigits 10 e
  | .negSucc e => 'e' :: '-' :: Nat.toDigits 10 (e + 1)

def toText (d : Decimal) : List Char :=
  (if d.negative then ['-'] else []) ++ Nat.toDigits 10 d.digits ++ exponentText d.exponent

end Multistage.Decimal
