import Multistage.Json.Codec
import Multistage.Proofs.Decimal
import Multistage.Proofs.Json.Token
/-!
# What is relied on in a codec

`Codec.Faithful` is what is documented of libraries that write and read JSON: an object is read as it was written, a finite
double is written as a number that is read as the same double, any other one as `null`, and `null` is no double.  The
codec that runs here is one of them (`faithful_plain`).
-/
namespace Multistage.Json

structure Codec.Faithful (c : Codec) : Prop where
  finite : ∀ x : Binary64, x.isFinite = true →
    ∃ d, c.ofDouble x = .number d ∧ c.toDouble? (.number d) = some x
  notFinite : ∀ x : Binary64, x.isFinite = false → c.ofDouble x = .null
  null : c.toDouble? .null = none
  object : ∀ members, c.read? (c.write members) = some (.object (members.map fun m => (units m.1, m.2.value)))

/-! ## Objects are found again -/

theorem apart_cons {t u : Token} (other : t.isWord = false ∨ u.isWord = false) (ts : List Token) :
    Token.apart (t :: u :: ts) = Token.apart (u :: ts) := by
  rw [Token.apart]
  rcases other with other | other <;> simp [other]

/-- A member is apart from what comes next, since its value stands behind a colon and in front of no word. -/
theorem apart_laterTokens : ∀ (t : Token) (members : List (String × Scalar)),
    Token.apart (t :: laterTokens members) = true
  | t, [] => by
    rw [laterTokens, apart_cons (.inr rfl)]
    rfl
  | t, (key, s) :: members => by
    rw [laterTokens, apart_cons (.inr rfl), apart_cons (.inr rfl), apart_cons (.inr rfl), apart_cons (.inl rfl)]
    exact apart_laterTokens s.token members

theorem apart_objectTokens (members : List (String × Scalar)) : Token.apart (objectTokens members) = true := by
  cases members with
  | nil => rfl
  | cons m members =>
    rw [objectTokens, apart_cons (.inr rfl), apart_cons (.inr rfl), apart_cons (.inl rfl)]
    exact apart_laterTokens m.2.token members

namespace Value

theorem enter_token (stack : List Frame) (s : Scalar) : enter stack s.token = some (.after s.value stack) := by
  cases s <;> rfl

/-- Behind the key of a member its value is read. -/
theorem read_colon (acc : List (List UInt16 × Value)) (key : String) (s : Scalar) (ts : List Token) :
    read (.colon acc (units key) []) (.colon :: s.token :: ts) = read (.after s.value [.member acc (units key)]) ts := by
  have value : step (.value [.member acc (units key)]) s.token = some (.after s.value [.member acc (units key)]) := by
    rw [step, enter_token]
  show read (.value [.member acc (units key)]) (s.token :: ts) = _
  rw [read, value]
  rfl

theorem read_laterTokens : ∀ (members : List (String × Scalar)) (v : Value) (acc : List (List UInt16 × Value))
    (key : List UInt16), read (.after v [.member acc key]) (laterTokens members) =
      some (.object (((key, v) :: acc).reverse ++ members.map fun m => (units m.1, m.2.value)))
  | [], v, acc, key => by
    rw [List.map_nil, List.append_nil]
    rfl
  | (next, s) :: members, v, acc, key => by
    show read (.colon ((key, v) :: acc) (units next) []) (.colon :: s.token :: laterTokens members) = _
    rw [read_colon, read_laterTokens members, List.map_cons, List.reverse_cons, List.append_assoc]
    rfl

theorem ofTokens?_objectTokens (members : List (String × Scalar)) :
    ofTokens? (objectTokens members) = some (.object (members.map fun m => (units m.1, m.2.value))) := by
  cases members with
  | nil => rfl
  | cons m members =>
    show read (.colon [] (units m.1) []) (.colon :: m.2.token :: laterTokens members) = _
    rw [read_colon, read_laterTokens]
    rfl

end Value

/-- **What runs here can be relied on.** -/
theorem faithful_plain : plain.Faithful where
  finite x finite := by
    refine ⟨.shortest x, if_pos finite, ?_⟩
    show (if (Decimal.shortest x).toBinary64.isFinite then some (Decimal.shortest x).toBinary64 else none) = some x
    rw [Decimal.toBinary64_shortest finite, if_pos finite]
  notFinite x infinite := if_neg (Bool.eq_false_iff.1 infinite)
  null := rfl
  object members := by
    show Value.ofText? (String.ofList ((objectTokens members).flatMap Token.toText)).toList = _
    rw [Value.ofText?, String.toList_ofList, Token.ofText?_flatMap (apart_objectTokens members)]
    exact Value.ofTokens?_objectTokens members

end Multistage.Json
