import Multistage.Binary64
/-!
# Sums of binary64 values

The sum of two words is that of the numbers they stand for, rounded and packed into a word again (`add_eq`).  Rounding
can take a finite sum to an infinity, but takes nothing else to a finite value, so a sum is finite only if both summands
are (`isFinite_of_add`).  A sum is a NaN if a summand is one, or if infinities of both signs are added
(`isNaN_add`).
-/
namespace Multistage
namespace Binary64

open Float.Model Float.Model.UnpackedFloat

variable {x y : Binary64}

/-! ## The fields of a word -/

/-- The eleven bits below the sign. -/
def exponent (x : Binary64) : Nat := x.magnitude / 0x10000000000000

/-- The 52 lowest bits. -/
def fraction (x : Binary64) : Nat := x.magnitude % 0x10000000000000

theorem magnitude_lt (x : Binary64) : x.magnitude < 0x8000000000000000 := Nat.mod_lt _ (by decide)

theorem magnitude_ofMagnitude (negative : Bool) {m : Nat} (h : m < 0x8000000000000000) :
    (ofMagnitude negative m).magnitude = m := by
  cases negative <;> simp [ofMagnitude, magnitude] <;> omega

theorem exponent_fraction (x : Binary64) : x.exponent * 0x10000000000000 + x.fraction = x.magnitude :=
  Nat.div_add_mod' ..

theorem fraction_lt (x : Binary64) : x.fraction < 0x10000000000000 := Nat.mod_lt _ (by decide)

theorem exponent_le (x : Binary64) : x.exponent ≤ 2047 := by
  have short := x.magnitude_lt
  unfold exponent
  omega

theorem isFinite_eq_false : x.isFinite = false ↔ x.exponent = 2047 := by
  have short := x.magnitude_lt
  rw [isFinite, decide_eq_false_iff_not, exponent, infinityMagnitude]
  omega

theorem isNaN_eq_true : x.isNaN = true ↔ x.exponent = 2047 ∧ x.fraction ≠ 0 := by
  have short := x.magnitude_lt
  rw [isNaN, decide_eq_true_eq, exponent, fraction, infinityMagnitude]
  omega

theorem fraction_eq_zero (top : x.exponent = 2047) (number : x.isNaN = false) : x.fraction = 0 :=
  Classical.byContradiction fun other => Bool.false_ne_true (number.symm.trans (isNaN_eq_true.2 ⟨top, other⟩))

theorem eq_posInf_or_negInf (infinite : x.isFinite = false) (number : x.isNaN = false) : x = posInf ∨ x = negInf := by
  have top := isFinite_eq_false.1 infinite
  rw [← x.ofMagnitude_magnitude, ← x.exponent_fraction, top, fraction_eq_zero top number]
  cases x.isNegative with
  | false => exact .inl (by decide)
  | true => exact .inr (by decide)

/-! ## The number that a word stands for -/

def signOf (negative : Bool) : Sign := if negative then .negative else .positive

theorem exists_signOf (s : Sign) : ∃ negative, signOf negative = s := by
  cases s with
  | negative => exact ⟨true, rfl⟩
  | positive => exact ⟨false, rfl⟩

def value (x : Binary64) : UnpackedFloat := .unpack .binary64 x.bits.toBitVec

/-- The word of a number that is rounded already, or an infinity if it is too large for one. -/
def ofValue (u : UnpackedFloat) : Binary64 := ⟨.ofBitVec (UnpackedFloat.pack .binary64 u)⟩

theorem toNat_unpackExponent (x : Binary64) :
    (@unpackExponent .binary64 x.bits.toBitVec).toNat = x.exponent := by
  simp [unpackExponent, exponent, magnitude, Nat.shiftRight_eq_div_pow]
  omega

theorem toNat_unpackMantissa (x : Binary64) :
    (@unpackMantissa .binary64 x.bits.toBitVec).toNat = x.fraction := by
  simp [unpackMantissa, fraction, magnitude]

theorem unpackExponent_eq (x : Binary64) (k : BitVec Format.binary64.exponentBits) :
    @unpackExponent .binary64 x.bits.toBitVec = k ↔ x.exponent = k.toNat := by
  rw [← toNat_unpackExponent, BitVec.toNat_inj]

theorem unpackMantissa_eq (x : Binary64) (k : BitVec Format.binary64.mantissaBitsWithoutImplicit) :
    @unpackMantissa .binary64 x.bits.toBitVec = k ↔ x.fraction = k.toNat := by
  rw [← toNat_unpackMantissa, BitVec.toNat_inj]

theorem ofBitVec_unpackSign (x : Binary64) :
    Sign.ofBitVec (@unpackSign .binary64 x.bits.toBitVec) = signOf x.isNegative := by
  have short := x.bits.toNat_lt
  have top : (@unpackSign .binary64 x.bits.toBitVec).toNat = x.bits.toNat / 0x8000000000000000 := by
    unfold unpackSign
    simp [Nat.shiftRight_eq_div_pow]
    omega
  have positive : @unpackSign .binary64 x.bits.toBitVec = 0#1 ↔ ¬ x.isNegative := by
    simp [← BitVec.toNat_inj, top, isNegative]
  rw [Sign.ofBitVec, signOf]
  cases negative : x.isNegative with
  | true => exact if_neg fun zero => positive.1 zero negative
  | false => exact if_pos (positive.2 (by rw [negative]; exact Bool.false_ne_true))

theorem finite_congr {s s' : Sign} {m m' : Nat} {e e' : Int} (sign : s = s') (mantissa : m = m') (exponent : e = e')
    (h : 0 < m) (h' : 0 < m') : UnpackedFloat.finite s m e h = .finite s' m' e' h' := by
  subst sign mantissa exponent
  rfl

/-- The exponent counts from the weight of the lowest bit, and a leading one is not written. -/
theorem value_eq (x : Binary64) : x.value =
    if x.exponent = 2047 then
      if x.fraction = 0 then .infinity (signOf x.isNegative) else .notANumber
    else if x.exponent = 0 then
      if h : x.fraction = 0 then .zero (signOf x.isNegative)
      else .finite (signOf x.isNegative) x.fraction (x.exponent - 1075 + 1) (Nat.pos_of_ne_zero h)
    else .finite (signOf x.isNegative) (0x10000000000000 + x.fraction) (x.exponent - 1075) (by omega) := by
  have leading : (1#1 ++ @unpackMantissa .binary64 x.bits.toBitVec).toNat =
      0x10000000000000 + x.fraction := by
    rw [BitVec.toNat_append, ← Nat.shiftLeft_add_eq_or_of_lt (BitVec.isLt _), toNat_unpackMantissa]
    rfl
  have sign := x.ofBitVec_unpackSign
  have weight : ((@unpackExponent .binary64 x.bits.toBitVec).toNat : Int) - 1075 = x.exponent - 1075 := by
    rw [toNat_unpackExponent]
  have subnormal := finite_congr sign x.toNat_unpackMantissa (congrArg (· + 1) weight)
  have top := propext (x.unpackExponent_eq (-1))
  have bottom := propext (x.unpackExponent_eq 0)
  have zero := propext (x.unpackMantissa_eq 0)
  exact ite_congr top
    (fun _ => ite_congr zero (fun _ => congrArg _ sign) fun _ => rfl)
    (fun _ => ite_congr bottom
      (fun _ => dite_congr zero (fun _ => congrArg _ sign) fun _ => subnormal _ _)
      (fun _ => finite_congr sign leading weight _ _))

/-- The number that the fields of a word write out. -/
inductive Represents (x : Binary64) : UnpackedFloat → Prop
  | infinity (top : x.exponent = 2047) (zero : x.fraction = 0) : Represents x (.infinity (signOf x.isNegative))
  | notANumber (top : x.exponent = 2047) (payload : x.fraction ≠ 0) : Represents x .notANumber
  | zero (bottom : x.exponent = 0) (zero : x.fraction = 0) : Represents x (.zero (signOf x.isNegative))
  | subnormal (bottom : x.exponent = 0) (h : 0 < x.fraction) :
      Represents x (.finite (signOf x.isNegative) x.fraction (x.exponent - 1075 + 1) h)
  | normal (top : x.exponent ≠ 2047) (bottom : x.exponent ≠ 0) (h : 0 < 0x10000000000000 + x.fraction) :
      Represents x (.finite (signOf x.isNegative) (0x10000000000000 + x.fraction) (x.exponent - 1075) h)

theorem represents_value (x : Binary64) : x.Represents x.value := by
  rw [value_eq]
  by_cases top : x.exponent = 2047
  · rw [if_pos top]
    by_cases zero : x.fraction = 0
    · rw [if_pos zero]
      exact .infinity top zero
    · rw [if_neg zero]
      exact .notANumber top zero
  · rw [if_neg top]
    by_cases bottom : x.exponent = 0
    · rw [if_pos bottom]
      by_cases zero : x.fraction = 0
      · rw [dif_pos zero]
        exact .zero bottom zero
      · rw [dif_neg zero]
        exact .subnormal bottom _
    · rw [if_neg bottom]
      exact .normal top bottom _

theorem isNaN_value (x : Binary64) : x.value.isNaN = x.isNaN := by
  have number : x.exponent ≠ 2047 ∨ x.fraction = 0 → false = x.isNaN := fun fields => by
    rw [eq_comm, Bool.eq_false_iff, ne_eq, isNaN_eq_true]
    rintro ⟨top, payload⟩
    exact fields.elim (· top) payload
  have represents := x.represents_value
  generalize x.value = u at represents ⊢
  cases represents with
  | infinity top zero => exact number (.inr zero)
  | notANumber top payload => exact (isNaN_eq_true.2 ⟨top, payload⟩).symm
  | zero bottom zero => exact number (.inr zero)
  | subnormal bottom => exact number (.inl (by omega))
  | normal top => exact number (.inl top)

theorem isFinite_value (x : Binary64) : x.value.isFinite = x.isFinite := by
  have finite : x.exponent ≠ 2047 → true = x.isFinite := fun fields => by
    rw [eq_comm, ← Bool.not_eq_false, isFinite_eq_false]
    exact fields
  have represents := x.represents_value
  generalize x.value = u at represents ⊢
  cases represents with
  | infinity top => exact (isFinite_eq_false.2 top).symm
  | notANumber top => exact (isFinite_eq_false.2 top).symm
  | zero bottom => exact finite (by omega)
  | subnormal bottom => exact finite (by omega)
  | normal top => exact finite top

/-! ## Packing -/

theorem packComponents_eq (negative : Bool) (e : BitVec 11) (m : BitVec 52) :
    (⟨.ofBitVec (packComponents .binary64 (signOf negative) e m)⟩ : Binary64) =
      ofMagnitude negative (e.toNat * 0x10000000000000 + m.toNat) := by
  have he := e.isLt
  have hm := m.isLt
  rw [ofMagnitude, Binary64.mk.injEq, ← UInt64.toNat_inj, UInt64.toNat_ofBitVec, packComponents, BitVec.toNat_append,
    BitVec.toNat_append, ← Nat.shiftLeft_add_eq_or_of_lt he, ← Nat.shiftLeft_add_eq_or_of_lt hm]
  cases negative <;> simp [signOf, Sign.toBitVec, Nat.shiftLeft_eq] <;> omega

theorem ofValue_nan : ofValue .notANumber = nan := by decide

theorem ofValue_infinity (negative : Bool) :
    ofValue (.infinity (signOf negative)) = ofMagnitude negative infinityMagnitude :=
  packComponents_eq ..

theorem ofValue_zero (negative : Bool) : ofValue (.zero (signOf negative)) = ofMagnitude negative 0 :=
  packComponents_eq ..

theorem ofValue_finite (negative : Bool) {m : Nat} {e : Int} (h : 0 < m) :
    ofValue (.finite (signOf negative) m e h) = ofMagnitude negative
      (if 2047 ≤ (e + 1075).toNat then infinityMagnitude
      else if m.log2 = 52 then (e + 1075).toNat * 0x10000000000000 + m % 0x10000000000000
      else m % 0x10000000000000) := by
  have biased : (e + (Format.binary64.exponentBias : Nat) +
      (Format.binary64.mantissaBitsWithoutImplicit : Nat)).toNat = (e + 1075).toNat := by
    show (e + 1023 + 52).toNat = _
    omega
  have overflow : 2 ^ Format.binary64.exponentBits ≤ (e + 1075).toNat + 1 ↔ 2047 ≤ (e + 1075).toNat :=
    Nat.succ_le_succ_iff
  have normal : m.log2 + 1 = Format.binary64.mantissaBits ↔ m.log2 = 52 := Nat.add_right_cancel_iff
  unfold ofValue UnpackedFloat.pack
  simp only [biased, overflow, normal]
  split
  · exact packComponents_eq ..
  · split
    · rw [packComponents_eq, BitVec.toNat_ofNat, BitVec.toNat_ofNat]
      congr 3
      exact Nat.mod_eq_of_lt (show (e + 1075).toNat < 2048 by omega)
    · rw [packComponents_eq, BitVec.toNat_ofNat]
      congr 1
      exact Nat.zero_add _

/-- A word that is no NaN is packed as it was unpacked. -/
theorem ofValue_value (number : x.isNaN = false) : ofValue x.value = x := by
  have fraction := x.fraction_lt
  have exponent := x.exponent_le
  have represents := x.represents_value
  generalize x.value = u at represents ⊢
  refine Eq.trans ?_ x.ofMagnitude_magnitude
  rw [← x.exponent_fraction]
  cases represents with
  | infinity top zero =>
    rw [ofValue_infinity, top, zero]
    rfl
  | notANumber top payload => exact absurd (fraction_eq_zero top number) payload
  | zero bottom zero => rw [ofValue_zero, bottom, zero]
  | subnormal bottom positive =>
    have leading : x.fraction.log2 ≠ 52 := fun leading => by
      have := (Nat.log2_eq_iff (by omega)).1 leading
      omega
    rw [ofValue_finite, bottom, if_neg (by omega), if_neg leading, Nat.mod_eq_of_lt fraction, Nat.zero_mul,
      Nat.zero_add]
  | normal top bottom =>
    have leading : (0x10000000000000 + x.fraction).log2 = 52 := (Nat.log2_eq_iff (by omega)).2 (by omega)
    rw [ofValue_finite, Int.sub_add_cancel, Int.toNat_natCast, if_neg (by omega), if_pos leading, Nat.add_mod_left,
      Nat.mod_eq_of_lt fraction]

theorem value_eq_nan : x.value = .notANumber ↔ x.isNaN = true := by
  rw [← isNaN_value]
  cases x.value with
  | notANumber => exact iff_of_true rfl rfl
  | _ => exact iff_of_false (by rintro ⟨⟩) Bool.false_ne_true

theorem value_eq_infinity {s : Sign} :
    x.value = .infinity s ↔ x = match s with
      | .positive => posInf
      | .negative => negInf := by
  constructor
  · intro infinite
    have number : x.isNaN = false := by rw [← isNaN_value, infinite]; rfl
    rw [← ofValue_value number, infinite]
    cases s <;> decide
  · rintro rfl
    cases s <;> exact (value_eq _).trans (by rw [if_pos (by decide), if_pos (by decide)]; rfl)

theorem value_ofValue_value (x : Binary64) : (ofValue x.value).value = x.value := by
  cases nan : x.isNaN with
  | false => rw [ofValue_value nan]
  | true =>
    rw [value_eq_nan.2 nan, ofValue_nan]
    exact value_eq_nan.2 (by decide)

theorem isNaN_ofValue (u : UnpackedFloat) : (ofValue u).isNaN = u.isNaN := by
  cases u with
  | notANumber => decide
  | infinity s => cases s <;> decide
  | zero s => cases s <;> decide
  | finite s m e h =>
    obtain ⟨negative, rfl⟩ := exists_signOf s
    rw [ofValue_finite]
    generalize bits : (if 2047 ≤ (e + 1075).toNat then infinityMagnitude else _) = k
    have number : k ≤ infinityMagnitude := by
      rw [← bits]
      unfold infinityMagnitude
      split
      · omega
      · split <;> omega
    rw [isNaN, magnitude_ofMagnitude _ (Nat.lt_of_le_of_lt number (by decide))]
    exact decide_eq_false (Nat.not_lt.2 number)

/-- Only finite numbers have finite words. -/
theorem isFinite_of_ofValue {u : UnpackedFloat} (h : (ofValue u).isFinite = true) : u.isFinite = true := by
  cases u with
  | notANumber => exact absurd h (by decide)
  | infinity s => cases s <;> exact absurd h (by decide)
  | zero => rfl
  | finite => rfl

/-! ## Sums -/

theorem add_eq (x y : Binary64) : x + y = ofValue (.add .binary64 x.value y.value) := by
  rw [← value_ofValue_value x, ← value_ofValue_value y]
  rfl

theorem isNaN_normalize (spec : Format) (m e : Int) (s : Sign) :
    (UnpackedFloat.normalize spec m e s).isNaN = false := by
  have rounded : ∀ t n, (UnpackedFloat.round spec t n e).isNaN = false := fun t n => by
    unfold UnpackedFloat.round roundWithAccuracy
    dsimp only
    rw [apply_dite UnpackedFloat.isNaN]
    exact dite_eq_right_iff.2 fun _ => rfl
  unfold UnpackedFloat.normalize
  split
  · exact rounded _ _
  · rfl
  · exact rounded _ _

/-- Infinities of different signs. -/
def opposed : UnpackedFloat → UnpackedFloat → Bool
  | .infinity s, .infinity t => !(s == t)
  | _, _ => false

theorem opposed_eq_true {u v : UnpackedFloat} :
    opposed u v = true ↔ ∃ s t, u = .infinity s ∧ v = .infinity t ∧ (s == t) = false := by
  constructor
  · intro h
    cases u with
    | infinity s =>
      cases v with
      | infinity t => exact ⟨s, t, rfl, rfl, by simpa only [opposed, Bool.not_eq_true'] using h⟩
      | _ => cases h
    | _ => cases h
  · rintro ⟨s, t, rfl, rfl, differ⟩
    simpa only [opposed, Bool.not_eq_true'] using differ

theorem isNaN_sum (spec : Format) (u v : UnpackedFloat) :
    (UnpackedFloat.add spec u v).isNaN = (u.isNaN || v.isNaN || opposed u v) := by
  cases u with
  | notANumber => cases v <;> rfl
  | infinity s =>
    cases v with
    | infinity t => cases s <;> cases t <;> rfl
    | _ => rfl
  | zero s =>
    cases v with
    | zero t => cases s <;> cases t <;> rfl
    | _ => rfl
  | finite =>
    cases v with
    | finite => exact isNaN_normalize ..
    | _ => rfl

theorem isFinite_of_sum (spec : Format) {u v : UnpackedFloat} (h : (UnpackedFloat.add spec u v).isFinite = true) :
    u.isFinite = true ∧ v.isFinite = true := by
  cases u with
  | notANumber => cases v <;> cases h
  | infinity s =>
    cases v with
    | infinity t => cases s <;> cases t <;> cases h
    | _ => cases h
  | zero =>
    cases v with
    | zero => exact ⟨rfl, rfl⟩
    | finite => exact ⟨rfl, rfl⟩
    | _ => cases h
  | finite =>
    cases v with
    | zero => exact ⟨rfl, rfl⟩
    | finite => exact ⟨rfl, rfl⟩
    | _ => cases h

/-- Two infinities, one of each sign. -/
def Opposed (x y : Binary64) : Prop := x = posInf ∧ y = negInf ∨ x = negInf ∧ y = posInf

theorem opposed_value : opposed x.value y.value = true ↔ Opposed x y := by
  simp only [opposed_eq_true, value_eq_infinity]
  constructor
  · rintro ⟨s, t, hx, hy, differ⟩
    cases s <;> cases t
    · cases differ
    · exact .inr ⟨hx, hy⟩
    · exact .inl ⟨hx, hy⟩
    · cases differ
  · rintro (⟨hx, hy⟩ | ⟨hx, hy⟩)
    · exact ⟨.positive, .negative, hx, hy, rfl⟩
    · exact ⟨.negative, .positive, hx, hy, rfl⟩

/-- **A sum is a NaN if a summand is one, or if opposed infinities are added.** -/
theorem isNaN_add : (x + y).isNaN = true ↔ x.isNaN = true ∨ y.isNaN = true ∨ Opposed x y := by
  rw [add_eq, isNaN_ofValue, isNaN_sum, isNaN_value, isNaN_value, Bool.or_eq_true, Bool.or_eq_true, or_assoc,
    opposed_value]

/-- **Only finite values have a finite sum.** -/
theorem isFinite_of_add (h : (x + y).isFinite = true) : x.isFinite = true ∧ y.isFinite = true := by
  rw [add_eq] at h
  have finite := isFinite_of_sum _ (isFinite_of_ofValue h)
  rwa [isFinite_value, isFinite_value] at finite

end Binary64
end Multistage
