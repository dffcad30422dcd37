import Multistage.Json.Token
import Multistage.Proofs.Decimal.Text
/-!
# Written tokens are scanned again

Reading a written token completes that token and goes on behind it (`scan_toText`), a word only if something that ends
it follows.  So a list of tokens in which no two words stand side by side is found again in what is written for it
(`ofText?_flatMap`).
-/
namespace Multistage.Json

/-! ## Units -/

theorem toNat_charOfNat {n : Nat} (ascii : n < 0x7f) : (Char.ofNat n).toNat = n := by
  have valid : n.isValidChar := .inl (by omega)
  rw [Char.ofNat, dif_pos valid]
  rfl

theorem unitsOfChar_charOfNat {u : UInt16} (ascii : u.toNat < 0x7f) : unitsOfChar (Char.ofNat u.toNat) = [u] := by
  rw [unitsOfChar, toNat_charOfNat ascii, if_pos (by omega)]
  exact congrArg ([·]) UInt16.ofNat_toNat

namespace Token

theorem scan_cons (mode : Mode) (c : Char) (cs : List Char) :
    scan mode (c :: cs) = (step mode c).bind fun next => (scan next.1 cs).map (next.2 ++ ·) := by
  cases mode <;> rfl

/-- A step that completes no token goes on in its mode. -/
theorem scan_cons_of_step {mode next : Mode} {c : Char} (stepped : step mode c = some (next, [])) (cs : List Char) :
    scan mode (c :: cs) = scan next cs := by
  rw [scan_cons, stepped]
  exact Option.map_id' ..

theorem hexValue?_digitChar : ∀ d < 16, hexValue? (Nat.digitChar d) = some d := by decide

/-! ## Texts -/

theorem scan_hexDigits (us : List UInt16) (u : UInt16) (rest : List Char) :
    scan (.hex us 4 0) (hexDigits u ++ rest) = scan (.text (u :: us)) rest := by
  have digit : ∀ shift, hexValue? (Nat.digitChar ((u.toNat >>> shift) % 16)) = some ((u.toNat >>> shift) % 16) :=
    fun shift => hexValue?_digitChar _ (Nat.mod_lt _ (by decide))
  have step : ∀ left value shift, left ≠ 1 → step (.hex us left value) (Nat.digitChar ((u.toNat >>> shift) % 16)) =
      some (.hex us (left - 1) (16 * value + (u.toNat >>> shift) % 16), []) := fun left value shift more => by
    rw [Token.step, digit, Option.map_some, if_neg more]
  have last : ∀ value, Token.step (.hex us 1 value) (Nat.digitChar ((u.toNat >>> 0) % 16)) =
      some (.text ((16 * value + (u.toNat >>> 0) % 16).toUInt16 :: us), []) := fun value => by
    rw [Token.step, digit, Option.map_some, if_pos rfl]
  show scan (.hex us 4 0) (_ :: _ :: _ :: _ :: rest) = _
  rw [scan_cons_of_step (step 4 0 12 (by decide)), scan_cons_of_step (step 3 _ 8 (by decide)),
    scan_cons_of_step (step 2 _ 4 (by decide)), scan_cons_of_step (last _)]
  have digits : 16 * (16 * (16 * (16 * 0 + (u.toNat >>> 12) % 16) + (u.toNat >>> 8) % 16) + (u.toNat >>> 4) % 16) +
      (u.toNat >>> 0) % 16 = u.toNat := by
    have := u.toNat_lt
    simp only [Nat.shiftRight_eq_div_pow]
    omega
  rw [digits]
  exact congrArg (fun v => scan (.text (v :: us)) rest) UInt16.ofNat_toNat

theorem scan_unitText (us : List UInt16) (u : UInt16) (rest : List Char) :
    scan (.text us) (unitText u ++ rest) = scan (.text (u :: us)) rest := by
  rw [unitText]
  split
  · rename_i plain
    obtain ⟨printable, ascii, noQuote, noEscape⟩ := plain
    have ascii : u.toNat < 0x7f := ascii
    have differs : ∀ c : Char, u.toNat ≠ c.toNat → Char.ofNat u.toNat ≠ c := fun c other same =>
      other ((toNat_charOfNat ascii).symm.trans (congrArg Char.toNat same))
    have quote : Char.ofNat u.toNat ≠ '"' := differs _ fun same => noQuote (UInt16.toNat_inj.1 same)
    have escape : Char.ofNat u.toNat ≠ '\\' := differs _ fun same => noEscape (UInt16.toNat_inj.1 same)
    have control : ¬ Char.ofNat u.toNat < ' ' := fun below => by
      have below : (Char.ofNat u.toNat).toNat < 0x20 := below
      have printable : 0x20 ≤ u.toNat := printable
      rw [toNat_charOfNat ascii] at below
      omega
    refine scan_cons_of_step ?_ rest
    rw [step, if_neg quote, if_neg escape, if_neg control, unitsOfChar_charOfNat ascii]
    rfl
  · show scan (.text us) ('\\' :: 'u' :: (hexDigits u ++ rest)) = _
    rw [scan_cons_of_step (show step (.text us) '\\' = some (.escape us, []) from rfl),
      scan_cons_of_step (show step (.escape us) 'u' = some (.hex us 4 0, []) from rfl), scan_hexDigits]

theorem scan_units (rest : List Char) : ∀ written us : List UInt16,
    scan (.text us) (written.flatMap unitText ++ rest) = scan (.text (written.reverse ++ us)) rest
  | [], us => rfl
  | u :: written, us => by
    rw [List.flatMap_cons, List.append_assoc, scan_unitText, scan_units rest written, List.reverse_cons,
      List.append_assoc]
    rfl

theorem scan_quote (us : List UInt16) (rest : List Char) :
    scan .between (quote us ++ rest) = (scan .between rest).map (text us :: ·) := by
  rw [quote, List.append_assoc, List.cons_append,
    scan_cons_of_step (show step .between '"' = some (.text [], []) from rfl), scan_units, List.append_nil]
  show scan (.text us.reverse) ('"' :: rest) = _
  rw [scan_cons]
  show (scan .between rest).map ([text us.reverse.reverse] ++ ·) = _
  rw [List.reverse_reverse]
  rfl

/-! ## Words -/

/-- Names and numbers go on until something ends them. -/
def isWord : Token → Bool
  | null | bool _ | number _ => true
  | _ => false

/-- What follows a word: nothing, or something that ends it. -/
def Stops (rest : List Char) : Prop := ∀ c ∈ rest.head?, endsWord c = true

theorem start_of_not_endsWord {c : Char} (inside : endsWord c = false) : start c = (.word [c], []) := by
  simp only [endsWord, Bool.or_eq_false_iff, decide_eq_false_iff_not] at inside
  obtain ⟨⟨noBlank, noQuote⟩, noPunctuation⟩ := inside
  rw [start, if_neg (Bool.eq_false_iff.1 noBlank), if_neg noQuote]
  cases mark : punctuation? c with
  | none => rfl
  | some t =>
    rw [mark] at noPunctuation
    cases noPunctuation

/-- A word is taken as far as it goes. -/
theorem scan_word {rest : List Char} (stops : Stops rest) : ∀ {cs : List Char} (begun : List Char),
    cs.any endsWord = false → scan (.word begun) (cs ++ rest) =
      (ofWord? (begun.reverse ++ cs)).bind fun t => (scan .between rest).map (t :: ·)
  | [], begun, _ => by
    rw [List.append_nil, List.nil_append]
    cases rest with
    | nil =>
      show (ofWord? begun.reverse).map ([·]) = _
      cases ofWord? begun.reverse <;> rfl
    | cons c rest =>
      rw [scan_cons, step, if_pos (stops c rfl)]
      cases ofWord? begun.reverse with
      | none => rfl
      | some t =>
        show (scan (start c).1 rest).map (t :: (start c).2 ++ ·) = (scan .between (c :: rest)).map (t :: ·)
        rw [scan_cons, show step .between c = some (start c) from rfl, Option.bind_some, Option.map_map]
        rfl
  | c :: cs, begun, inside => by
    obtain ⟨here, inside⟩ := Bool.or_eq_false_iff.1 (List.any_cons.symm.trans inside)
    have stepped : step (.word begun) c = some (.word (c :: begun), []) := by
      rw [step, if_neg (Bool.eq_false_iff.1 here)]
    rw [List.cons_append, scan_cons_of_step stepped, scan_word stops _ inside, List.reverse_cons, List.append_assoc]
    rfl

theorem scan_ofWord {t : Token} {c : Char} {cs rest : List Char} (word : ofWord? (c :: cs) = some t)
    (inside : (c :: cs).any endsWord = false) (stops : Stops rest) :
    scan .between (c :: cs ++ rest) = (scan .between rest).map (t :: ·) := by
  obtain ⟨here, inside⟩ := Bool.or_eq_false_iff.1 (List.any_cons.symm.trans inside)
  have begun : step .between c = some (.word [c], []) := congrArg some (start_of_not_endsWord here)
  rw [List.cons_append, scan_cons_of_step begun, scan_word stops _ inside]
  show (ofWord? (c :: cs)).bind _ = _
  rw [word]
  rfl

theorem endsWord_of_isDigit {c : Char} (digit : c.isDigit = true) : endsWord c = false := by
  have differs : ∀ d : Char, d.isDigit = false → c ≠ d := fun d other same => by
    rw [same, other] at digit
    cases digit
  have mark : punctuation? c = none := by
    unfold punctuation?
    split
    case h_7 => rfl
    all_goals cases digit
  rw [endsWord, isBlank, mark]
  simp [differs ' ', differs '\t', differs '\n', differs '\x0d', differs '"']

/-- The characters of a number end no word. -/
theorem any_endsWord_toText (d : Decimal) : d.toText.any endsWord = false := by
  refine List.any_eq_false.2 fun c h => Bool.eq_false_iff.1 ?_
  have digits : ∀ n, c ∈ Nat.toDigits 10 n → endsWord c = false := fun n hc =>
    endsWord_of_isDigit (List.all_eq_true.1 (Decimal.all_isDigit_toDigits n) c hc)
  have exponent : ∀ e, c ∈ Decimal.exponentText e → endsWord c = false := fun e hc => by
    unfold Decimal.exponentText at hc
    split at hc
    · cases hc
    · obtain rfl | hc := List.mem_cons.1 hc
      · rfl
      · exact digits _ hc
    · obtain rfl | hc := List.mem_cons.1 hc
      · rfl
      · obtain rfl | hc := List.mem_cons.1 hc
        · rfl
        · exact digits _ hc
  rw [Decimal.toText, List.mem_append, List.mem_append] at h
  obtain (hc | hc) | hc := h
  · split at hc
    · obtain rfl := List.mem_singleton.1 hc
      rfl
    · cases hc
  · exact digits _ hc
  · exact exponent _ hc

theorem ofWord?_toText (d : Decimal) : ofWord? d.toText = some (number d) := by
  have differs : ∀ name : List Char, Decimal.ofText? name = none → d.toText ≠ name := fun name unread same => by
    rw [← same, Decimal.ofText?_toText] at unread
    cases unread
  rw [ofWord?, if_neg (differs _ (by decide)), if_neg (differs _ (by decide)), if_neg (differs _ (by decide)),
    Decimal.ofText?_toText]
  rfl

/-! ## Tokens -/

/-- **Reading a written token completes it and goes on behind it.** -/
theorem scan_toText (t : Token) {rest : List Char} (stops : t.isWord = true → Stops rest) :
    scan .between (t.toText ++ rest) = (scan .between rest).map (t :: ·) := by
  cases t with
  | null => exact scan_ofWord (by decide) (by decide) (stops rfl)
  | bool value => cases value <;> exact scan_ofWord (by decide) (by decide) (stops rfl)
  | number d =>
    have word := ofWord?_toText d
    cases written : d.toText with
    | nil =>
      rw [written] at word
      cases word
    | cons c cs =>
      show scan .between (d.toText ++ rest) = _
      rw [written] at word ⊢
      exact scan_ofWord word (written ▸ any_endsWord_toText d) (stops rfl)
  | text us => exact scan_quote us rest
  | _ => rfl

/-- No two words stand side by side. -/
def apart : List Token → Bool
  | t :: u :: ts => !(t.isWord && u.isWord) && apart (u :: ts)
  | _ => true

theorem stops_toText {u : Token} (other : u.isWord = false) (rest : List Char) : Stops (u.toText ++ rest) := by
  intro c hc
  cases u with
  | null => cases other
  | bool => cases other
  | number => cases other
  | _ => exact Option.some.inj hc ▸ rfl

/-- **Tokens are found again in what is written for them**, if no two words stand side by side. -/
theorem ofText?_flatMap : ∀ {ts : List Token}, apart ts = true → ofText? (ts.flatMap toText) = some ts
  | [], _ => rfl
  | [t], _ => by
    rw [ofText?, List.flatMap_cons, scan_toText t fun _ c hc => by cases hc]
    rfl
  | t :: u :: ts, parted => by
    rw [apart, Bool.and_eq_true] at parted
    have stops : t.isWord = true → Stops ((u :: ts).flatMap toText) := fun word => by
      have other : u.isWord = false := by simpa [word] using parted.1
      exact stops_toText other _
    have rest : scan .between ((u :: ts).flatMap toText) = some (u :: ts) := ofText?_flatMap parted.2
    rw [ofText?, List.flatMap_cons, scan_toText t stops, rest]
    rfl

end Token
end Multistage.Json
