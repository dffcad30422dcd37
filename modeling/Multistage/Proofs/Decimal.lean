import Multistage.Decimal
import Multistage.Proofs.Binary64
/-!
# Decimals keep binary64 values

A finite value is a number of units, and its decimal is that number written out exactly, so the value nearest to it is
the value itself (`toBinary64_ofBinary64`).  Its shortest decimal is chosen so that the same holds.
-/
namespace Multistage

/-! ## Twos -/

theorem twos_le : ∀ limit n : Nat, twos limit n ≤ limit
  | 0, _ => Nat.le_refl 0
  | limit + 1, n => by
    rw [twos]
    split
    · exact Nat.succ_le_succ (twos_le limit (n / 2))
    · exact Nat.zero_le _

theorem shiftRight_twos : ∀ limit n : Nat, (n >>> twos limit n) <<< twos limit n = n
  | 0, _ => rfl
  | limit + 1, n => by
    rw [twos]
    split
    · rename_i even
      rw [Nat.shiftRight_succ_inside, Nat.shiftLeft_succ, shiftRight_twos limit (n / 2)]
      omega
    · rfl

/-- A power of two that is taken out comes back as one of ten, if as many fives were put in. -/
theorem shiftLeft_fives (n twos places : Nat) :
    (n * Nat.pow 5 places) <<< (twos + places) = (n <<< twos) * Nat.pow 10 places := by
  have tens : Nat.pow 10 places = Nat.pow 5 places * Nat.pow 2 places := Nat.mul_pow 5 2 places
  rw [Nat.shiftLeft_add, Nat.shiftLeft_eq, Nat.shiftLeft_eq, Nat.shiftLeft_eq, tens]
  show n * Nat.pow 5 places * Nat.pow 2 twos * Nat.pow 2 places =
    n * Nat.pow 2 twos * (Nat.pow 5 places * Nat.pow 2 places)
  ac_rfl

/-! ## Units -/

theorem log2_shiftLeft {n : Nat} (h : n ≠ 0) : ∀ k, (n <<< k).log2 = n.log2 + k
  | 0 => rfl
  | k + 1 => by
    have positive : n <<< k ≠ 0 := by
      rw [Nat.shiftLeft_eq]
      exact Nat.mul_ne_zero h (Nat.ne_of_gt (Nat.two_pow_pos k))
    rw [Nat.shiftLeft_succ, Nat.log2_two_mul positive, log2_shiftLeft h k]
    rfl

theorem roundDiv_shiftLeft (n k : Nat) {d : Nat} (hd : 0 < d) : roundDiv (n <<< k * d) (d <<< k) = n := by
  have positive : 0 < d <<< k := by
    rw [Nat.shiftLeft_eq]
    exact Nat.mul_pos hd (Nat.two_pow_pos k)
  have moved : n <<< k * d = n * d <<< k := by
    rw [Nat.shiftLeft_eq, Nat.shiftLeft_eq]
    ac_rfl
  rw [moved, roundDiv_mul_right positive]

/-- A leading one counts as a step of the exponent. -/
theorem shiftLeft_add_leading {e : Nat} (f : Nat) (positive : 0 < e) :
    (e - 1) <<< 52 + (0x10000000000000 + f) = e * 0x10000000000000 + f := by
  rw [Nat.shiftLeft_eq]
  omega

namespace Binary64

variable {x : Binary64}

/-- As many units as a finite value has are rounded to that value. -/
theorem roundUnits_units (finite : x.isFinite = true) {d : Nat} (hd : 0 < d) :
    roundUnits (x.units * d) d = x.magnitude := by
  have bounded : min infinityMagnitude x.magnitude = x.magnitude :=
    Nat.min_eq_right (Nat.le_of_lt (of_decide_eq_true finite))
  rw [roundUnits, Nat.mul_div_cancel _ hd, units]
  split
  · rename_i subnormal
    have unshifted : x.magnitude.log2 - 52 = 0 := by
      by_cases zero : x.magnitude = 0
      · rw [zero]
        rfl
      · exact Nat.sub_eq_zero_of_le (Nat.le_of_lt ((Nat.log2_lt zero).2 subnormal))
    rw [unshifted, Nat.shiftLeft_zero, roundDiv_mul_right hd, Nat.zero_shiftLeft, Nat.zero_add, bounded]
  · rename_i normal
    rw [show x.magnitude % 0x10000000000000 = x.fraction from rfl,
      show x.magnitude / 0x10000000000000 = x.exponent from rfl]
    have positive : 0 < x.exponent := Nat.div_pos (Nat.not_lt.1 normal) (by decide)
    have fraction := x.fraction_lt
    have leading : (0x10000000000000 + x.fraction).log2 = 52 := (Nat.log2_eq_iff (by omega)).2 (by omega)
    have shift : ((0x10000000000000 + x.fraction) <<< (x.exponent - 1)).log2 - 52 = x.exponent - 1 := by
      rw [log2_shiftLeft (by omega), leading, Nat.add_sub_cancel_left]
    rw [shift, roundDiv_shiftLeft _ _ hd, shiftLeft_add_leading _ positive, exponent_fraction, bounded]

theorem units_eq_zero : x.units = 0 ↔ x.magnitude = 0 := by
  rw [units]
  split
  · exact Iff.rfl
  · rename_i normal
    refine iff_of_false ?_ fun zero => normal (zero ▸ by decide)
    rw [Nat.shiftLeft_eq]
    exact Nat.mul_ne_zero (by omega) (Nat.ne_of_gt (Nat.two_pow_pos _))

end Binary64

/-! ## Decimals -/

namespace Decimal

open Binary64

variable {x : Binary64}

/-- The decimal of a finite value is as many units as the value. -/
theorem magnitude_ofBinary64 (finite : x.isFinite = true) : (ofBinary64 x).magnitude = x.magnitude := by
  have le : twos 1074 x.units ≤ 1074 := twos_le ..
  have whole : (x.units >>> twos 1074 x.units) <<< twos 1074 x.units = x.units := shiftRight_twos ..
  generalize ht : twos 1074 x.units = t at le whole
  obtain ⟨p, hp⟩ : ∃ p, t + p = 1074 := ⟨1074 - t, by omega⟩
  have written : ofBinary64 x = ⟨x.isNegative, (x.units >>> t) * Nat.pow 5 p, -(p : Nat)⟩ := by
    rw [ofBinary64, ht, show 1074 - t = p by omega]
  have scaled : ((x.units >>> t) * Nat.pow 5 p) <<< 1074 = x.units * Nat.pow 10 p := by
    rw [← hp, shiftLeft_fives, whole]
  have tens : 0 < Nat.pow 10 p := Nat.pow_pos (by decide)
  have small : ¬ (400 : Int) < -p := by omega
  have large : ¬ -(p : Int) < -(1100 + ((x.units >>> t) * Nat.pow 5 p).log2 : Nat) := by omega
  rw [written, magnitude]
  dsimp only
  rw [if_neg small, if_neg large]
  split
  · rename_i zero
    rw [zero, Nat.zero_shiftLeft] at scaled
    have units := (Nat.mul_eq_zero.1 scaled.symm).resolve_right (Nat.ne_of_gt tens)
    exact (units_eq_zero.1 units).symm
  · cases p with
    | zero =>
      show roundUnits (((x.units >>> t) * Nat.pow 5 0 * 1) <<< 1074) 1 = _
      rw [Nat.mul_one ((x.units >>> t) * Nat.pow 5 0), scaled]
      exact roundUnits_units finite Nat.one_pos
    | succ p =>
      show roundUnits (((x.units >>> t) * Nat.pow 5 (p + 1)) <<< 1074) (Nat.pow 10 (p + 1)) = _
      rw [scaled, roundUnits_units finite tens]

/-- **The value nearest to the decimal of a finite value is that value.** -/
theorem toBinary64_ofBinary64 (finite : x.isFinite = true) : (ofBinary64 x).toBinary64 = x := by
  rw [toBinary64, magnitude_ofBinary64 finite]
  exact x.ofMagnitude_magnitude

/-- Leaving digits out does not lead to another value. -/
theorem toBinary64_shortest (finite : x.isFinite = true) : (shortest x).toBinary64 = x := by
  rw [shortest]
  cases short : ((List.range' 1 17).map (rounded (ofBinary64 x))).find? fun d => d.toBinary64 = x with
  | none => exact toBinary64_ofBinary64 finite
  | some d => exact of_decide_eq_true (List.find?_some (p := fun d : Decimal => decide (d.toBinary64 = x)) short)

end Decimal
end Multistage
