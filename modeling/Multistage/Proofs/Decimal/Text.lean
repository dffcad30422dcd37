import Multistage.Decimal.Text
/-!
# Written decimals are read back

Digits are taken as far as they go, and what follows a written number is no digit, so every part is found again
(`ofText?_toText`).
-/
namespace Multistage.Decimal

/-! ## Digits -/

theorem all_isDigit_toDigits (n : Nat) : (Nat.toDigits 10 n).all Char.isDigit = true :=
  List.all_eq_true.2 fun _ => Nat.isDigit_of_mem_toDigits (by decide) (by decide)

/-- The digits of a number begin with a zero only if there is nothing else to write. -/
theorem exists_toDigits (n : Nat) (positive : 0 < n) : ∃ c cs, Nat.toDigits 10 n = c :: cs ∧ c ≠ '0' := by
  induction n using Nat.strongRecOn with
  | ind n ih =>
    by_cases short : n < 10
    · exact ⟨_, [], Nat.toDigits_of_lt_base short, fun zero =>
        Nat.ne_of_gt positive (Nat.digitChar_eq_zero.1 zero)⟩
    · have long : 10 ≤ n := Nat.not_lt.1 short
      obtain ⟨c, cs, digits, other⟩ := ih (n / 10) (Nat.div_lt_self positive (by decide))
        (Nat.div_pos long (by decide))
      exact ⟨c, _, by rw [Nat.toDigits_of_base_le (by decide) long, digits, List.cons_append], other⟩

/-- Digits begin with neither sign. -/
theorem exists_toDigits_append (n : Nat) (rest : List Char) :
    ∃ c cs, Nat.toDigits 10 n ++ rest = c :: cs ∧ c ≠ '-' ∧ c ≠ '+' := by
  obtain ⟨c, cs, digits⟩ := List.exists_cons_of_ne_nil (Nat.toDigits_ne_nil (n := n) (b := 10))
  have digit : c.isDigit = true := List.all_eq_true.1 (all_isDigit_toDigits n) c (digits ▸ List.mem_cons_self ..)
  refine ⟨c, cs ++ rest, by rw [digits, List.cons_append], ?_, ?_⟩
  · rintro rfl
    cases digit
  · rintro rfl
    cases digit

theorem isWhole_toDigits (n : Nat) : isWhole (Nat.toDigits 10 n) = true := by
  obtain rfl | positive := Nat.eq_zero_or_pos n
  · rw [Nat.toDigits_zero]
    rfl
  · obtain ⟨c, cs, digits, other⟩ := exists_toDigits n positive
    rw [digits, isWhole.eq_def]
    split
    · rename_i none
      cases none
    · rfl
    · rename_i same
      exact decide_eq_true ((List.cons.inj same).1 ▸ other)

/-- A run of digits ends where something else begins. -/
theorem digitRun_append {digits : List Char} (all : digits.all Char.isDigit = true) (rest : List Char)
    (ends : ∀ c ∈ rest.head?, c.isDigit = false) : digitRun (digits ++ rest) = (digits, rest) := by
  have here : ∀ c ∈ digits, c.isDigit = true := List.all_eq_true.1 all
  rw [digitRun, List.takeWhile_append_of_pos here, List.dropWhile_append_of_pos here]
  cases rest with
  | nil => simp
  | cons c cs => simp [ends c rfl]

theorem lastDigits?_toDigits (n : Nat) : lastDigits? (Nat.toDigits 10 n) = some n := by
  rw [lastDigits?, if_neg (by simp [all_isDigit_toDigits, Nat.toDigits_ne_nil]), Nat.ofDigitChars_ten_toDigits]

theorem signedDigits?_toDigits (n : Nat) : signedDigits? (Nat.toDigits 10 n) = some (n : Int) := by
  obtain ⟨c, cs, digits, noMinus, noPlus⟩ := exists_toDigits_append n []
  rw [List.append_nil] at digits
  have last := lastDigits?_toDigits n
  rw [digits] at last ⊢
  rw [signedDigits?.eq_def]
  split
  · rename_i same
    exact absurd (List.cons.inj same).1 noMinus
  · rename_i same
    exact absurd (List.cons.inj same).1 noPlus
  · rw [last]
    rfl

/-! ## Decimals -/

theorem sign_toText (d : Decimal) : sign d.toText = (d.negative, Nat.toDigits 10 d.digits ++ exponentText d.exponent) := by
  rw [toText]
  cases d.negative with
  | true => rfl
  | false =>
    obtain ⟨c, cs, digits, noMinus, -⟩ := exists_toDigits_append d.digits (exponentText d.exponent)
    show sign (Nat.toDigits 10 d.digits ++ exponentText d.exponent) = _
    rw [digits, sign.eq_def]
    split
    · rename_i same
      exact absurd (List.cons.inj same).1 noMinus
    · rfl

theorem head?_exponentText (e : Int) : ∀ c ∈ (exponentText e).head?, c = 'e' := by
  intro c hc
  unfold exponentText at hc
  split at hc
  · cases hc
  · exact (Option.some.inj hc).symm
  · exact (Option.some.inj hc).symm

theorem exponent?_exponentText (e : Int) : exponent? (exponentText e) = some e := by
  unfold exponentText
  split
  · rfl
  · rename_i e _
    exact signedDigits?_toDigits e
  · rename_i e
    show signedDigits? ('-' :: Nat.toDigits 10 (e + 1)) = _
    rw [signedDigits?, lastDigits?_toDigits]
    rfl

/-- **A written decimal is read back.** -/
theorem ofText?_toText (d : Decimal) : ofText? d.toText = some d := by
  have e := head?_exponentText d.exponent
  have run := digitRun_append (all_isDigit_toDigits d.digits) (exponentText d.exponent) fun c hc => e c hc ▸ rfl
  have fraction : fraction? (exponentText d.exponent) = some ([], exponentText d.exponent) := by
    rw [fraction?.eq_def]
    split
    · rename_i point
      cases e '.' (point ▸ rfl)
    · rfl
  rw [ofText?, sign_toText]
  dsimp only
  rw [run]
  dsimp only
  rw [if_pos (isWhole_toDigits _), fraction]
  show ((exponent? (exponentText d.exponent)).bind fun e => _) = _
  rw [exponent?_exponentText, List.append_nil, Nat.ofDigitChars_ten_toDigits]
  show some ({ negative := d.negative, digits := d.digits, exponent := d.exponent - 0 } : Decimal) = some d
  rw [Int.sub_zero]

end Multistage.Decimal
