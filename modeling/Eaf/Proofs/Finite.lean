import Mathlib.Algebra.Order.Field.Rat
import Eaf.Proofs.DecimalTexts
import Eaf.Proofs.Thousandths

/-!
# Texts of finite numbers

A decimal number is finite unless the binary64 number nearest to it would be too large, that is,
unless it reaches the middle between the largest finite number and the next power of two. Exactly
the texts of such numbers give a slot its time, blanks around them aside, and in both units the same
ones do.

## Main definitions

* `Eaf.Decimal.size` — the size of a decimal number.
* `Eaf.WritesFinite` — the texts that write a finite number.

## Main results

* `Eaf.Binary64.isSome_round?_iff` — the ratios that are rounded to finite numbers.
* `Eaf.Decimal.isSome_toBinary64?_iff` — the decimal numbers that are.
* `Eaf.TimeUnit.isSome_read?_iff` — the texts that are read as times.
-/

namespace Eaf

/-! ### Numbers that are too large -/

namespace Binary64

/-- A ratio is rounded to less than an even integer if it is more than one half below it. -/
theorem nearest_lt_iff {numerator denominator n : Nat} (h : 0 < denominator) (heven : n % 2 = 0) :
    nearest numerator denominator < n ↔ 2 * numerator + denominator < 2 * (n * denominator) := by
  have hsplit := Nat.div_add_mod' numerator denominator
  have hrest := Nat.mod_lt numerator h
  simp only [nearest, Bool.or_eq_true, Bool.and_eq_true, decide_eq_true_eq, beq_iff_eq]
  generalize numerator / denominator = quotient, numerator % denominator = rest at hsplit hrest ⊢
  rcases Nat.lt_trichotomy (quotient + 1) n with hbelow | rfl | habove
  · have hmul : (quotient + 1 + 1) * denominator ≤ n * denominator :=
      Nat.mul_le_mul_right _ hbelow
    rw [Nat.add_mul, Nat.add_mul, Nat.one_mul] at hmul
    refine iff_of_true ?_ (by omega)
    split <;> omega
  · -- Between two integers of which the larger one is even, the middle is rounded up.
    rw [Nat.add_mul, Nat.one_mul]
    split <;> omega
  · have hmul : n * denominator ≤ quotient * denominator :=
      Nat.mul_le_mul_right _ (Nat.lt_succ_iff.1 habove)
    refine iff_of_false ?_ (by omega)
    split <;> omega

/-- The middle between the largest finite number and the next power of two. -/
def tooLarge : Nat :=
  (powerOfTwo 54 - 1) * powerOfTwo 970

/-- At the largest scale a ratio is rounded to a significand of 53 bits unless it is too large. -/
theorem nearest_maxScale_lt_iff {numerator denominator : Nat} (h : 0 < denominator) :
    nearest numerator (denominator * powerOfTwo maxScale) < powerOfTwo 53 ↔
      numerator < tooLarge * one * denominator := by
  have hmiddle : 2 * (tooLarge * one) + powerOfTwo maxScale =
      2 * (powerOfTwo 53 * powerOfTwo maxScale) := by
    decide +kernel
  have hpos : 0 < denominator * powerOfTwo maxScale := Nat.mul_pos h (powerOfTwo_pos _)
  rw [nearest_lt_iff hpos (by decide)]
  generalize tooLarge * one = bound, powerOfTwo maxScale = power at hmiddle ⊢
  have hscaled := congrArg (denominator * ·) hmiddle
  simp only [Nat.mul_add, Nat.mul_left_comm denominator] at hscaled
  rw [Nat.mul_comm bound]
  omega

/-- A ratio is rounded to a finite number unless it is too large. -/
theorem isSome_round?_iff (negative : Bool) (numerator : Nat) {denominator : Nat}
    (h : 0 < denominator) :
    (round? negative numerator denominator).isSome ↔
      numerator < tooLarge * one * denominator := by
  have hlow : powerOfTwo (52 + maxScale) ≤ tooLarge * one := by decide +kernel
  have hhigh : tooLarge * one ≤ powerOfTwo (53 + maxScale) := by decide +kernel
  have hround {scale : Nat} (hscale : scaleOf (numerator / denominator) = scale) :
      (round? negative numerator denominator).isSome ↔
        if nearest numerator (denominator * powerOfTwo scale) = powerOfTwo 53 then
          scale + 1 ≤ maxScale else scale ≤ maxScale := by
    rw [round?, hscale]
    split <;> simp
  rcases Nat.lt_or_ge (numerator / denominator) (powerOfTwo (52 + maxScale)) with hsmall | hlarge
  · have hbits : 52 + maxScale = 53 + 2044 := rfl
    have hle : scaleOf (numerator / denominator) + 1 ≤ maxScale :=
      Nat.succ_le_succ (scaleOf_le (hbits ▸ hsmall))
    rw [Nat.div_lt_iff_lt_mul h] at hsmall
    refine iff_of_true ?_ (Nat.lt_of_lt_of_le hsmall (Nat.mul_le_mul_right _ hlow))
    rw [hround rfl]
    split
    · exact hle
    · exact Nat.le_of_succ_le hle
  rcases Nat.lt_or_ge (numerator / denominator) (powerOfTwo (53 + maxScale)) with hlast | hlarger
  · -- The largest scale: only a significand that is rounded up to `2 ^ 53` is too large.
    have hdiv : numerator / denominator / powerOfTwo maxScale < powerOfTwo 53 := by
      rwa [Nat.div_lt_iff_lt_mul (powerOfTwo_pos _), ← powerOfTwo_add]
    have hle := nearest_le numerator (denominator * powerOfTwo maxScale)
    rw [← Nat.div_div_eq_div_mul] at hle
    rw [hround (scaleOf_eq hlarge hlast), ← nearest_maxScale_lt_iff h]
    split
    next hup => exact iff_of_false (Nat.not_succ_le_self _) (Nat.not_lt.2 (Nat.le_of_eq hup.symm))
    next hdown =>
      exact iff_of_true (Nat.le_refl _) (Nat.lt_of_le_of_ne (Nat.le_trans hle hdiv) hdown)
  · have hle : maxScale + 1 ≤ scaleOf (numerator / denominator) := le_scaleOf hlarger
    have hbound := (Nat.le_div_iff_mul_le h).1 hlarger
    refine iff_of_false ?_ (Nat.not_lt.2 (Nat.le_trans (Nat.mul_le_mul_right _ hhigh) hbound))
    rw [hround rfl]
    split
    · exact fun hover => Nat.not_succ_le_self _ (Nat.le_trans hle (Nat.le_of_succ_le hover))
    · exact Nat.not_le.2 hle

end Binary64

namespace Decimal

/-! ### Sizes of decimal numbers -/

/-- The size of a decimal number. -/
def size (x : Decimal) : ℚ :=
  x.coefficient * 10 ^ x.exponent

/-- The size of a decimal number compared with an integer, without fractions. -/
theorem size_lt_iff (x : Decimal) (bound : Nat) :
    x.size < bound ↔
      x.coefficient * 10 ^ x.exponent.toNat < bound * 10 ^ (-x.exponent).toNat := by
  obtain ⟨n, hn | hn⟩ := Int.eq_nat_or_neg x.exponent
  · rw [size, hn, zpow_natCast, Int.toNat_natCast, Int.toNat_neg_natCast, Nat.pow_zero, Nat.mul_one]
    exact_mod_cast Iff.rfl
  · have hpos : (0 : ℚ) < 10 ^ n := pow_pos (by decide) n
    rw [size, hn, zpow_neg, zpow_natCast, mul_inv_lt_iff₀ hpos, Int.neg_neg, Int.toNat_natCast,
      Int.toNat_neg_natCast, Nat.pow_zero, Nat.mul_one]
    exact_mod_cast Iff.rfl

theorem powerOfTen_eq (n : Nat) : powerOfTen n = 10 ^ n :=
  rfl

/-- The number of digits tells the size of a coefficient. -/
theorem coefficient_lt (x : Decimal) : x.coefficient < 10 ^ (Numeral.write x.coefficient).length :=
  (Nat.length_toDigits_le_iff (by decide) (List.length_pos_iff.2 (Numeral.write_ne_nil _))).1
    (Nat.le_refl _)

theorem le_coefficient {x : Decimal} (h : x.coefficient ≠ 0) :
    10 ^ ((Numeral.write x.coefficient).length - 1) ≤ x.coefficient := by
  rcases Nat.eq_zero_or_pos ((Numeral.write x.coefficient).length - 1) with hone | hmore
  · rw [hone]
    exact Nat.pos_of_ne_zero h
  · refine Nat.le_of_not_lt fun hlt => ?_
    have hle := (Nat.length_toDigits_le_iff (by decide) hmore).2 hlt
    rw [← Numeral.write] at hle
    omega

/-- A number that is taken for zero is not too large. -/
theorem size_lt_tooLarge {x : Decimal} (h : x.coefficient = 0 ∨ x.places < -330) :
    x.size < Binary64.tooLarge := by
  have hpos : 0 < Binary64.tooLarge := by decide +kernel
  rw [size_lt_iff]
  rcases h with hzero | hplaces
  · rw [hzero, Nat.zero_mul]
    exact Nat.mul_pos hpos (Nat.pow_pos (by decide))
  · have hexponent : x.exponent.toNat = 0 ∧
        (Numeral.write x.coefficient).length ≤ (-x.exponent).toNat := by
      unfold places at hplaces
      omega
    rw [hexponent.1, Nat.pow_zero, Nat.mul_one]
    calc x.coefficient
      _ < 10 ^ (Numeral.write x.coefficient).length := x.coefficient_lt
      _ ≤ 10 ^ (-x.exponent).toNat := Nat.pow_le_pow_right (by decide) hexponent.2
      _ ≤ Binary64.tooLarge * 10 ^ (-x.exponent).toNat := Nat.le_mul_of_pos_left _ hpos

/-- A number with too many places is too large. -/
theorem not_size_lt_tooLarge {x : Decimal} (hne : x.coefficient ≠ 0) (h : x.places > 310) :
    ¬ x.size < Binary64.tooLarge := by
  have hexponent : 310 + (-x.exponent).toNat ≤
      (Numeral.write x.coefficient).length - 1 + x.exponent.toNat := by
    unfold places at h
    omega
  have hlimit : Binary64.tooLarge ≤ 10 ^ 310 := by
    rw [← powerOfTen_eq]
    decide +kernel
  -- The power itself is not to be formed.
  generalize 310 = limit at hexponent hlimit
  rw [size_lt_iff, Nat.not_lt]
  calc Binary64.tooLarge * 10 ^ (-x.exponent).toNat
    _ ≤ 10 ^ limit * 10 ^ (-x.exponent).toNat := Nat.mul_le_mul_right _ hlimit
    _ = 10 ^ (limit + (-x.exponent).toNat) := (Nat.pow_add _ _ _).symm
    _ ≤ 10 ^ ((Numeral.write x.coefficient).length - 1 + x.exponent.toNat) :=
      Nat.pow_le_pow_right (by decide) hexponent
    _ = 10 ^ ((Numeral.write x.coefficient).length - 1) * 10 ^ x.exponent.toNat :=
      Nat.pow_add _ _ _
    _ ≤ x.coefficient * 10 ^ x.exponent.toNat := Nat.mul_le_mul_right _ (le_coefficient hne)

/-- A decimal number is read as a finite number unless it is too large. -/
theorem isSome_toBinary64?_iff (x : Decimal) :
    x.toBinary64?.isSome ↔ x.size < Binary64.tooLarge := by
  have hone : 0 < Binary64.one := Binary64.powerOfTwo_pos 1074
  unfold toBinary64?
  split
  next hsmall => exact iff_of_true rfl (size_lt_tooLarge hsmall)
  next hnot =>
    split
    next hlarge =>
      exact iff_of_false Bool.false_ne_true (not_size_lt_tooLarge (not_or.1 hnot).1 hlarge)
    next =>
      rw [size_lt_iff]
      split
      next hfraction =>
        have hexponent : x.exponent.toNat = 0 ∧ (-x.exponent).toNat = x.exponent.natAbs := by omega
        rw [Binary64.ofRatio?, powerOfTen_eq,
          Binary64.isSome_round?_iff _ _ (Nat.pow_pos (by decide)), hexponent.1, hexponent.2,
          Nat.pow_zero, Nat.mul_one, Nat.mul_right_comm, Nat.mul_lt_mul_right hone]
      next hwhole =>
        have hexponent : (-x.exponent).toNat = 0 ∧ x.exponent.toNat = x.exponent.natAbs := by omega
        rw [Binary64.ofRatio?, powerOfTen_eq, Binary64.isSome_round?_iff _ _ Nat.one_pos,
          hexponent.1, hexponent.2, Nat.pow_zero, Nat.mul_one, Nat.mul_one,
          Nat.mul_lt_mul_right hone]

end Decimal

/-! ### Texts that are read as times -/

/-- A text writes a finite number, blanks around it aside: a decimal number that does not reach the
middle between the largest finite binary64 number and `2 ^ 1024`. -/
def WritesFinite (text : String) : Prop :=
  ∃ x, Decimal.Writes (Text.trim text.toList) x ∧ x.size < (2 ^ 54 - 1) * 2 ^ 970

/-- In both units the texts that are read as times are those of finite numbers. -/
theorem TimeUnit.isSome_read?_iff {unit : TimeUnit} {text : String} :
    (unit.read? text).isSome ↔ WritesFinite text := by
  have hbound : ((Binary64.tooLarge : Nat) : ℚ) = (2 ^ 54 - 1) * 2 ^ 970 := by
    have hpower (n : Nat) : ((Binary64.powerOfTwo n : Nat) : ℚ) = 2 ^ n := Nat.cast_pow 2 n
    rw [Binary64.tooLarge, Nat.cast_mul, Nat.cast_pred (Binary64.powerOfTwo_pos 54), hpower, hpower]
  rw [read?, Option.isSome_map, Option.isSome_iff_exists, WritesFinite, ← hbound]
  simp only [← Decimal.read?_eq_some_iff, ← Decimal.isSome_toBinary64?_iff, Option.bind_eq_some_iff,
    Option.isSome_iff_exists]
  constructor
  · rintro ⟨time, size, hsize, htime⟩
    exact ⟨size, hsize, time, htime⟩
  · rintro ⟨size, hsize, time, htime⟩
    exact ⟨time, size, hsize, htime⟩

end Eaf
