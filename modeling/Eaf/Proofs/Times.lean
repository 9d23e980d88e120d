import Mathlib.Algebra.Group.Int.Defs
import Mathlib.Algebra.Group.Nat.Defs
import Eaf.Number.Clock
import Eaf.Proofs.Trimmed

/-!
# Times that are written and read back

A time is written as the numeral of an integer of 64 bits and read as a binary64 number. The
number is the time itself if 53 bits are enough for it, up to a power of two; the largest integer
of 64 bits is read as the next power of two, which is out of range and becomes the largest integer
again. A time that was read from a file is one of these, so it survives being written. Every other
time is read as one nearby.

## Main definitions

* `Eaf.SteadyTime` — times that are read back as they are written.
* `Eaf.rereadTime` — the time that is read where a given one is written.

## Main results

* `Eaf.Binary64.round?_exact` — a number with a significand of 53 bits is its own rounding.
* `Eaf.TimeUnit.read?_writeInt` — the numeral of every time is read.
* `Eaf.rereadTime_eq_self_iff` — exactly the steady times are read back.
* `Eaf.rereadTime_near` — every time is read as one nearby.
* `Eaf.steadyTime_of_le` — times of at most 53 bits are steady.
* `Eaf.TimeUnit.steadyTime_of_read?` — times that were read from a file are steady.
-/

namespace Eaf

/-! ### Numbers that need no rounding -/

namespace Binary64

theorem powerOfTwo_pos (n : Nat) : 0 < powerOfTwo n :=
  Nat.two_pow_pos n

theorem powerOfTwo_add (m n : Nat) : powerOfTwo (m + n) = powerOfTwo m * powerOfTwo n :=
  Nat.pow_add 2 m n

/-- A multiple is divided without a rest. -/
theorem nearest_mul {denominator : Nat} (h : 0 < denominator) (n : Nat) :
    nearest (n * denominator) denominator = n := by
  have hne : ¬ (0 = denominator) := Nat.ne_of_lt h
  simp [nearest, Nat.mul_div_cancel n h, hne]

theorem nearest_le (numerator denominator : Nat) :
    nearest numerator denominator ≤ numerator / denominator + 1 := by
  unfold nearest
  dsimp only
  split <;> omega

/-- At its scale a size has at most 53 bits. -/
theorem div_scaleOf_lt (size : Nat) : size / powerOfTwo (scaleOf size) < powerOfTwo 53 := by
  unfold scaleOf
  split
  next h => exact Nat.lt_of_le_of_lt (Nat.div_le_self _ _) h
  next h =>
    have hpos : 0 < powerOfTwo 53 := powerOfTwo_pos 53
    have hsize : size ≠ 0 := by omega
    have hlog : 53 ≤ size.log2 := (Nat.le_log2 hsize).2 (Nat.le_of_not_lt h)
    rw [Nat.div_lt_iff_lt_mul (powerOfTwo_pos _), ← powerOfTwo_add]
    have hsum : 53 + (size.log2 - 52) = size.log2 + 1 := by omega
    rw [hsum]
    exact Nat.lt_log2_self

/-- A number that was rounded has a significand of 53 bits. -/
theorem significand_lt_of_round? {negative : Bool} {numerator denominator : Nat} {x : Binary64}
    (h : round? negative numerator denominator = some x) : x.significand < powerOfTwo 53 := by
  unfold round? at h
  obtain ⟨-, hx⟩ := Option.ite_none_right_eq_some.1 h
  obtain rfl := Option.some.inj hx
  split
  next => exact Nat.pow_lt_pow_right (by decide) (by decide)
  next hne =>
    have hle := nearest_le numerator (denominator * powerOfTwo (scaleOf (numerator / denominator)))
    rw [← Nat.div_div_eq_div_mul] at hle
    have hlt := div_scaleOf_lt (numerator / denominator)
    dsimp only
    omega

/-- A size that leaves 53 bits at some scale is rounded at that scale or a smaller one. -/
theorem scaleOf_le {size scale : Nat} (h : size < powerOfTwo (53 + scale)) :
    scaleOf size ≤ scale := by
  unfold scaleOf
  split
  · exact Nat.zero_le scale
  next hlarge =>
    have hne : size ≠ 0 := by
      have := powerOfTwo_pos 53
      omega
    have hlog := (Nat.log2_lt hne).2 h
    omega

/-- A number with a significand of 53 bits is its own rounding. -/
theorem round?_exact {significand scale : Nat} (negative : Bool)
    (h : significand < powerOfTwo 53) (hscale : scale ≤ maxScale) :
    ∃ x, round? negative (significand * powerOfTwo scale) 1 = some x ∧ x.negative = negative ∧
      x.units = significand * powerOfTwo scale := by
  have hle : scaleOf (significand * powerOfTwo scale) ≤ scale := by
    refine scaleOf_le ?_
    rw [powerOfTwo_add]
    exact Nat.mul_lt_mul_of_pos_right h (powerOfTwo_pos scale)
  have hlt := div_scaleOf_lt (significand * powerOfTwo scale)
  generalize hs : scaleOf (significand * powerOfTwo scale) = s at hle hlt
  have hsplit : significand * powerOfTwo scale =
      significand * powerOfTwo (scale - s) * powerOfTwo s := by
    rw [Nat.mul_assoc, ← powerOfTwo_add, Nat.sub_add_cancel hle]
  rw [hsplit, Nat.mul_div_cancel _ (powerOfTwo_pos s)] at hlt
  refine ⟨{ negative, significand := significand * powerOfTwo (scale - s), scale := s },
    ?_, rfl, hsplit.symm⟩
  have hround : nearest (significand * powerOfTwo scale) (powerOfTwo s) =
      significand * powerOfTwo (scale - s) := by
    rw [hsplit, nearest_mul (powerOfTwo_pos s)]
  rw [round?, Nat.div_one, hs, Nat.one_mul, hround, if_neg (Nat.ne_of_lt hlt)]
  exact if_pos (Nat.le_trans hle hscale)

/-! ### Numbers that are rounded -/

/-- The integer nearest to a ratio is at most one half away from it. -/
theorem nearest_near (numerator : Nat) {denominator : Nat} (h : 0 < denominator) :
    2 * (nearest numerator denominator * denominator) ≤ 2 * numerator + denominator ∧
      2 * numerator ≤ 2 * (nearest numerator denominator * denominator) + denominator := by
  have hsplit := Nat.div_add_mod' numerator denominator
  have hrest := Nat.mod_lt numerator h
  unfold nearest
  dsimp only
  generalize numerator / denominator = quotient, numerator % denominator = rest at hsplit hrest
  split
  next hup =>
    have hhalf : denominator ≤ 2 * rest := by
      simp only [Bool.or_eq_true, Bool.and_eq_true, decide_eq_true_eq, beq_iff_eq] at hup
      omega
    rw [Nat.add_mul quotient, Nat.one_mul]
    omega
  next hdown =>
    have hhalf : 2 * rest ≤ denominator := by
      simp only [Bool.or_eq_true, decide_eq_true_eq, not_or] at hdown
      omega
    omega

/-- A size that leaves 53 bits at a scale has a number near it: it is rounded by at most one half of
what one more at that scale counts. -/
theorem round?_near (negative : Bool) {size scale : Nat} (h : size < powerOfTwo (53 + scale))
    (hscale : scale < maxScale) :
    ∃ x, round? negative size 1 = some x ∧ x.negative = negative ∧
      2 * x.units ≤ 2 * size + powerOfTwo scale ∧ 2 * size ≤ 2 * x.units + powerOfTwo scale := by
  have hle := scaleOf_le h
  have hnear := nearest_near size (powerOfTwo_pos (scaleOf size))
  have hpower : powerOfTwo (scaleOf size) ≤ powerOfTwo scale :=
    Nat.pow_le_pow_right Nat.two_pos hle
  rw [round?, Nat.div_one, Nat.one_mul]
  split
  next hcarry =>
    have hunits : powerOfTwo 52 * powerOfTwo (scaleOf size + 1) =
        nearest size (powerOfTwo (scaleOf size)) * powerOfTwo (scaleOf size) := by
      rw [hcarry, ← powerOfTwo_add, ← powerOfTwo_add]
      congr 1
      omega
    refine ⟨_, if_pos (Nat.le_trans (Nat.succ_le_succ hle) hscale), rfl, ?_⟩
    simp only [units, hunits]
    omega
  next =>
    refine ⟨_, if_pos (Nat.le_trans hle (Nat.le_of_lt hscale)), rfl, ?_⟩
    simp only [units]
    omega

end Binary64

/-! ### Numerals of integers -/

namespace Numeral

/-- A numeral begins with a digit, so with no sign. -/
theorem exists_write_eq_cons (n : Nat) :
    ∃ c cs, write n = c :: cs ∧ c ≠ '-' ∧ c ≠ '+' := by
  obtain ⟨c, cs, hcons⟩ := List.exists_cons_of_ne_nil (write_ne_nil n)
  have hdigit : c.isDigit = true := isDigit_of_mem_write (hcons ▸ List.mem_cons_self)
  refine ⟨c, cs, hcons, ?_, ?_⟩ <;>
    · rintro rfl
      exact absurd hdigit (by decide)

/-- A numeral that was written is read, whether or not a sign may stand before it. -/
theorem readSignedWord?_write (w : UInt64) : readSignedWord? (write w.toNat) = some w := by
  obtain ⟨c, cs, hcons, -, hplus⟩ := exists_write_eq_cons w.toNat
  have hread := readWord?_write w
  rw [hcons] at hread ⊢
  unfold readSignedWord?
  split
  next heq => exact absurd (List.cons.inj heq).1 hplus
  next => exact hread

theorem isBlank_of_isDigit {c : Char} (h : c.isDigit = true) : Text.isBlank c = false := by
  simp only [Char.isDigit, Bool.and_eq_true, decide_eq_true_eq, UInt32.le_iff_toNat_le] at h
  have hrange : 0x30 ≤ c.toNat ∧ c.toNat ≤ 0x39 := h
  simp only [Text.isBlank, Bool.or_eq_false_iff, Bool.and_eq_false_iff, decide_eq_false_iff_not,
    beq_eq_false_iff_ne]
  omega

/-- A numeral has no blanks. -/
theorem trim_write (n : Nat) : Text.trim (write n) = write n :=
  Text.trim_eq_self fun _ hc => isBlank_of_isDigit (isDigit_of_mem_write hc)

theorem trim_writeInt (n : Int) : Text.trim (writeInt n) = writeInt n := by
  cases n with
  | ofNat n => exact trim_write n
  | negSucc n =>
    refine Text.trim_eq_self (List.forall_mem_cons.2 ⟨by decide, fun c hc => ?_⟩)
    exact isBlank_of_isDigit (isDigit_of_mem_write hc)

end Numeral

namespace Decimal

open Numeral

/-- Digits are read up to what follows them. -/
theorem takeWhile_isDigit_append {digits : List Char} (rest : List Char)
    (hdigits : ∀ c ∈ digits, c.isDigit = true) (hrest : ∀ c ∈ rest.head?, c.isDigit = false) :
    (digits ++ rest).takeWhile Char.isDigit = digits ∧
      (digits ++ rest).dropWhile Char.isDigit = rest := by
  have hstop : rest.takeWhile Char.isDigit = [] ∧ rest.dropWhile Char.isDigit = rest := by
    cases rest with
    | nil => exact ⟨rfl, rfl⟩
    | cons c cs => simp [hrest c rfl]
  rw [List.takeWhile_append_of_pos hdigits, List.dropWhile_append_of_pos hdigits, hstop.1, hstop.2,
    List.append_nil]
  exact ⟨rfl, rfl⟩

/-- A numeral is read as the number that it writes. -/
theorem readUnsigned?_write (negative : Bool) (n : Nat) :
    Written.readUnsigned? negative (write n) =
      some { negative, whole := write n, fraction := [], exponent := 0 } := by
  have hdigits : ∀ c ∈ write n, c.isDigit = true := fun c hc => isDigit_of_mem_write hc
  obtain ⟨htake, hdrop⟩ := takeWhile_isDigit_append [] hdigits nofun
  rw [List.append_nil] at htake hdrop
  rw [Written.readUnsigned?, htake, hdrop]
  simp [write_ne_nil, readExponent?]

theorem read?_writeInt (n : Int) :
    read? (writeInt n) = some { negative := n < 0, coefficient := n.natAbs, exponent := 0 } := by
  have hvalue (n : Nat) : Nat.ofDigitChars 10 (write n) 0 = n := by
    simp [write, Nat.ofDigitChars_toDigits]
  cases n with
  | ofNat n =>
    obtain ⟨c, cs, hcons, hminus, hplus⟩ := exists_write_eq_cons n
    have hread : Written.read? (write n) = Written.readUnsigned? false (write n) := by
      rw [hcons]
      unfold Written.read?
      split
      next heq => exact absurd (List.cons.inj heq).1 hminus
      next heq => exact absurd (List.cons.inj heq).1 hplus
      next => rfl
    rw [writeInt, read?, hread, readUnsigned?_write]
    simp [ofWritten, hvalue]
  | negSucc n =>
    rw [writeInt, read?, Written.read?, readUnsigned?_write]
    simp [ofWritten, hvalue, Int.negSucc_lt_zero]

end Decimal

/-! ### Steady times -/

/-- A time that is read back as it is written: 53 bits are enough for it, up to a power of two, or
it is the largest integer of 64 bits. -/
def SteadyTime (value : Int64) : Prop :=
  value = Int64.maxValue ∨ ∃ significand scale, significand < Binary64.powerOfTwo 53 ∧
    value.toInt.natAbs = significand * Binary64.powerOfTwo scale

/-- A time of at most 53 bits, or the next one, is steady. -/
theorem steadyTime_of_le {value : Int64} (low : -2 ^ 53 ≤ value.toInt)
    (high : value.toInt ≤ 2 ^ 53) : SteadyTime value := by
  rcases Nat.lt_or_ge value.toInt.natAbs (2 ^ 53) with hlt | hge
  · exact Or.inr ⟨value.toInt.natAbs, 0, hlt, (Nat.mul_one _).symm⟩
  · have habs : value.toInt.natAbs = 2 ^ 53 := by omega
    exact Or.inr ⟨1, 53, Nat.one_lt_two_pow (by decide), habs.trans (Nat.one_mul _).symm⟩

namespace Binary64

/-- The integer of a number with as many units as an integer has. -/
theorem floor_of_units {x : Binary64} {n : Int} (hnegative : x.negative = decide (n < 0))
    (hunits : x.units = n.natAbs * one) : x.floor = n := by
  have hone : (one : Int) ≠ 0 := Int.natCast_ne_zero.2 (Nat.ne_of_gt (powerOfTwo_pos 1074))
  have hsigned : (if x.negative then -(x.units : Int) else x.units) = n * one := by
    rw [hunits, hnegative, Int.natCast_mul]
    by_cases hn : n < 0
    · rw [decide_eq_true hn, if_pos rfl, ← Int.neg_mul, Int.ofNat_natAbs_of_nonpos (by omega),
        Int.neg_neg]
    · rw [decide_eq_false hn, if_neg (by simp), Int.natAbs_of_nonneg (by omega)]
  rw [floor, hsigned, Int.mul_ediv_cancel n hone]

end Binary64

theorem saturate_toInt (value : Int64) : saturate value.toInt = value := by
  rw [saturate, if_neg (Int.not_lt.2 value.minValue_le_toInt),
    if_neg (Int.not_lt.2 value.toInt_le), Int64.ofInt_toInt]

namespace Binary64

/-- An integer with a significand of 53 bits is a number. -/
theorem ofInt?_exact {n : Int} {significand scale : Nat} (hbound : n.natAbs ≤ 2 ^ 63)
    (h : significand < powerOfTwo 53) (hn : n.natAbs = significand * powerOfTwo scale) :
    ∃ x, ofInt? n = some x ∧ x.floor = n := by
  rcases Nat.eq_zero_or_pos significand with rfl | hpos
  · obtain rfl : n = 0 := Int.natAbs_eq_zero.1 (hn.trans (Nat.zero_mul _))
    exact ⟨zero false, by decide +kernel, by decide +kernel⟩
  · have hscale : scale ≤ 63 := by
      have hle : powerOfTwo scale ≤ 2 ^ 63 :=
        Nat.le_trans (Nat.le_mul_of_pos_left _ hpos) (hn ▸ hbound)
      exact (Nat.pow_le_pow_iff_right (by decide)).1 hle
    have hmax : scale + 1074 ≤ maxScale := by
      rw [maxScale]
      omega
    obtain ⟨x, hround, hnegative, hunits⟩ := round?_exact (decide (n < 0)) h hmax
    have hsize : n.natAbs * one = significand * powerOfTwo (scale + 1074) := by
      rw [hn, Nat.mul_assoc, one, powerOfTwo_add]
    refine ⟨x, ?_, floor_of_units hnegative (hunits.trans hsize.symm)⟩
    rw [ofInt?, ofRatio?, hsize, hround]

/-- An integer has a number near it: of `54 + k` bits the number keeps all but the last `k + 1`, and
moves by at most one half of what these can count. -/
theorem ofInt?_near {n : Int} {k : Nat} (h : n.natAbs < powerOfTwo (54 + k)) (hk : k ≤ 64) :
    ∃ x, ofInt? n = some x ∧ n - powerOfTwo k ≤ x.floor ∧ x.floor ≤ n + powerOfTwo k := by
  have hone : 0 < one := powerOfTwo_pos 1074
  have hsize : n.natAbs * one < powerOfTwo (53 + (k + 1 + 1074)) := by
    have hbits : 53 + (k + 1 + 1074) = (54 + k) + 1074 := by omega
    rw [hbits, powerOfTwo_add]
    exact Nat.mul_lt_mul_of_pos_right h hone
  have hscale : k + 1 + 1074 < maxScale := by
    rw [maxScale]
    omega
  obtain ⟨x, hround, hnegative, hhigh, hlow⟩ := round?_near (decide (n < 0)) hsize hscale
  have hhalf : powerOfTwo (k + 1 + 1074) = 2 * (powerOfTwo k * one) := by
    rw [powerOfTwo_add, powerOfTwo_add, one, Nat.mul_comm (powerOfTwo k) (powerOfTwo 1),
      Nat.mul_assoc]
    rfl
  rw [hhalf] at hhigh hlow
  have habove : x.units ≤ n.natAbs * one + powerOfTwo k * one := by omega
  have hbelow : n.natAbs * one ≤ x.units + powerOfTwo k * one := by omega
  obtain ⟨signed, hfloor, hsigned⟩ : ∃ signed : Int, x.floor = signed / one ∧
      (n - powerOfTwo k) * one ≤ signed ∧ signed ≤ (n + powerOfTwo k) * one := by
    refine ⟨_, rfl, ?_⟩
    rw [hnegative, Int.sub_mul, Int.add_mul, ← Int.natCast_mul]
    by_cases hn : n < 0
    · have habs : ((n.natAbs * one : Nat) : Int) = -(n * one) := by
        rw [Int.natCast_mul, Int.ofNat_natAbs_of_nonpos (Int.le_of_lt hn), Int.neg_mul]
      rw [decide_eq_true hn, if_pos rfl]
      omega
    · have habs : ((n.natAbs * one : Nat) : Int) = n * one := by
        rw [Int.natCast_mul, Int.natAbs_of_nonneg (Int.not_lt.1 hn)]
      rw [decide_eq_false hn, if_neg Bool.false_ne_true]
      omega
  have hone' : (0 : Int) < one := Int.natCast_pos.2 hone
  refine ⟨x, hround, ?_, ?_⟩
  · rw [hfloor]
    exact Int.le_ediv_of_mul_le hone' hsigned.1
  · rw [hfloor]
    exact Int.ediv_le_of_le_mul hone' hsigned.2

end Binary64

namespace Decimal

/-- A numeral of at most 64 bits is read as the number nearest to its integer. -/
theorem toBinary64?_ofInt {n : Int} (hbound : n.natAbs ≤ 2 ^ 63) :
    toBinary64? { negative := n < 0, coefficient := n.natAbs, exponent := 0 } =
      Binary64.ofInt? n := by
  by_cases hzero : n.natAbs = 0
  · obtain rfl := Int.natAbs_eq_zero.1 hzero
    decide +kernel
  · have hlength : (Numeral.write n.natAbs).length ≤ 20 :=
      (Nat.length_toDigits_le_iff (by decide) (by decide)).2 (Nat.lt_of_le_of_lt hbound (by decide))
    have hplaces : ¬ places { negative := n < 0, coefficient := n.natAbs, exponent := 0 } < -330 ∧
        ¬ places { negative := n < 0, coefficient := n.natAbs, exponent := 0 } > 310 := by
      simp only [places]
      omega
    rw [toBinary64?, if_neg (not_or.2 ⟨hzero, hplaces.1⟩), if_neg hplaces.2, if_neg (by simp),
      Binary64.ofInt?]
    simp [powerOfTen]

end Decimal

/-! ### Times that are read again -/

/-- The time that is read where a given one is written: the integer of the nearest number, or the
largest integer of 64 bits if it is out of range. -/
def rereadTime (value : Int64) : Int64 :=
  ((Binary64.ofInt? value.toInt).map fun x => saturate x.floor).getD value

theorem natAbs_toInt_le (value : Int64) : value.toInt.natAbs ≤ 2 ^ 63 := by
  have hlow := value.le_toInt
  have hhigh := value.toInt_lt
  omega

theorem rereadTime_of_ofInt? {value : Int64} {x : Binary64}
    (h : Binary64.ofInt? value.toInt = some x) : rereadTime value = saturate x.floor := by
  rw [rereadTime, h]
  rfl

/-- The numeral of every time is read. -/
theorem TimeUnit.read?_writeInt (value : Int64) :
    milliseconds.read? (String.ofList (Numeral.writeInt value.toInt)) =
      some (rereadTime value) := by
  have hbound := natAbs_toInt_le value
  obtain ⟨x, hx, -⟩ : ∃ x, Binary64.ofInt? value.toInt = some x ∧ _ :=
    Binary64.ofInt?_near (Nat.lt_of_le_of_lt hbound (by decide : _ < 2 ^ (54 + 10))) (by decide)
  rw [read?, String.toList_ofList, Numeral.trim_writeInt, Decimal.read?_writeInt,
    Option.bind_some, Decimal.toBinary64?_ofInt hbound, hx, Option.map_some, toMillis,
    rereadTime_of_ofInt? hx]

/-- A steady time is read back as it is written. -/
theorem SteadyTime.rereadTime_eq {value : Int64} (h : SteadyTime value) :
    rereadTime value = value := by
  rcases h with rfl | ⟨significand, scale, hlt, hvalue⟩
  · decide +kernel
  · obtain ⟨x, hx, hfloor⟩ := Binary64.ofInt?_exact (natAbs_toInt_le value) hlt hvalue
    rw [rereadTime_of_ofInt? hx, hfloor, saturate_toInt]

/-- A time is read as one that is at most 512 milliseconds away. -/
theorem rereadTime_near (value : Int64) :
    ((rereadTime value).toInt - value.toInt).natAbs ≤ 512 := by
  have hlow := value.le_toInt
  have hhigh := value.toInt_lt
  have hmin := Int64.toInt_minValue
  have hmax := Int64.toInt_maxValue
  rcases Nat.lt_or_ge value.toInt.natAbs (2 ^ 63) with hlt | hge
  · obtain ⟨x, hx, hbelow, habove⟩ := Binary64.ofInt?_near (k := 9) hlt (by decide)
    have hhalf : ((Binary64.powerOfTwo 9 : Nat) : Int) = 512 := rfl
    rw [rereadTime_of_ofInt? hx, saturate]
    split
    next => omega
    next hnotLow =>
      split
      next => omega
      next hnotHigh =>
        rw [Int64.toInt_ofInt_of_le (Int.not_lt.1 hnotLow) (by omega)]
        omega
  · -- The smallest integer is a power of two.
    have hsteady : SteadyTime value := Or.inr ⟨1, 63, Nat.one_lt_two_pow (by decide), by
      rw [Nat.one_mul]
      exact Nat.le_antisymm (natAbs_toInt_le value) hge⟩
    rw [hsteady.rereadTime_eq]
    omega

/-! ### Times from files -/

namespace Binary64

/-- The integer below a number with a significand of 53 bits has one, too. -/
theorem exists_floor_eq {x : Binary64} (h : x.significand < powerOfTwo 53) :
    ∃ significand scale, significand < powerOfTwo 53 ∧
      x.floor.natAbs = significand * powerOfTwo scale := by
  obtain ⟨signed, hfloor, habs⟩ : ∃ signed : Int,
      x.floor = signed * powerOfTwo x.scale / one ∧ signed.natAbs = x.significand := by
    refine ⟨if x.negative then -x.significand else x.significand, ?_, ?_⟩
    · rw [floor, units, Int.natCast_mul]
      cases x.negative with
      | false => rfl
      | true => rw [if_pos rfl, if_pos rfl, Int.neg_mul]
    · cases x.negative <;> simp
  rcases Nat.le_total x.scale 1074 with hscale | hscale
  · -- A fraction: the integer is not larger than the significand.
    have hone : (one : Int) = (powerOfTwo (1074 - x.scale) : Int) * (powerOfTwo x.scale : Int) := by
      rw [one, ← Int.natCast_mul, ← powerOfTwo_add, Nat.sub_add_cancel hscale]
    rw [hone, Int.mul_ediv_mul_of_pos_left _ _ (Int.natCast_pos.2 (powerOfTwo_pos _))] at hfloor
    refine ⟨x.floor.natAbs, 0, ?_, (Nat.mul_one _).symm⟩
    rw [hfloor]
    have hle := Int.natAbs_ediv_le_natAbs signed (powerOfTwo (1074 - x.scale))
    omega
  · -- An integer already.
    have hpower :
        (powerOfTwo x.scale : Int) = (powerOfTwo (x.scale - 1074) : Int) * (one : Int) := by
      rw [one, ← Int.natCast_mul, ← powerOfTwo_add, Nat.sub_add_cancel hscale]
    have hone : (one : Int) ≠ 0 := Int.natCast_ne_zero.2 (Nat.ne_of_gt (powerOfTwo_pos 1074))
    rw [hpower, ← Int.mul_assoc, Int.mul_ediv_cancel _ hone] at hfloor
    refine ⟨x.significand, x.scale - 1074, h, ?_⟩
    rw [hfloor, Int.natAbs_mul, habs, Int.natAbs_natCast]

end Binary64

theorem steadyTime_minValue : SteadyTime Int64.minValue :=
  Or.inr ⟨1, 63, Nat.one_lt_two_pow (by decide), by decide⟩

/-- A number with a significand of 53 bits is rounded down to a steady time. -/
theorem steadyTime_saturate {x : Binary64} (h : x.significand < Binary64.powerOfTwo 53) :
    SteadyTime (saturate x.floor) := by
  unfold saturate
  split
  next => exact steadyTime_minValue
  next hlow =>
    split
    next => exact Or.inl rfl
    next hhigh =>
      have hvalue : (Int64.ofInt x.floor).toInt = x.floor := by
        refine Int64.toInt_ofInt_of_le (Int.not_lt.1 hlow) ?_
        have hmax := Int64.toInt_maxValue
        omega
      rw [SteadyTime, hvalue]
      exact Or.inr (Binary64.exists_floor_eq h)

theorem Decimal.significand_lt_of_toBinary64? {x : Decimal} {y : Binary64}
    (h : x.toBinary64? = some y) : y.significand < Binary64.powerOfTwo 53 := by
  unfold toBinary64? at h
  split at h
  · obtain rfl := Option.some.inj h
    exact Binary64.powerOfTwo_pos 53
  · split at h
    · cases h
    · split at h <;> exact Binary64.significand_lt_of_round? h

/-- A time that was read from a file is steady. -/
theorem TimeUnit.steadyTime_of_read? {unit : TimeUnit} {text : String} {value : Int64}
    (h : unit.read? text = some value) : SteadyTime value := by
  obtain ⟨x, hx, rfl⟩ := Option.map_eq_some_iff.1 h
  obtain ⟨decimal, -, hx⟩ := Option.bind_eq_some_iff.1 hx
  have hlt := Decimal.significand_lt_of_toBinary64? hx
  cases unit with
  | milliseconds => exact steadyTime_saturate hlt
  | seconds =>
    simp only [toMillis]
    split
    next hproduct => exact steadyTime_saturate (Binary64.significand_lt_of_round? hproduct)
    next =>
      split
      · exact steadyTime_minValue
      · exact Or.inl rfl

/-- Exactly the steady times are read back as they are written. -/
theorem rereadTime_eq_self_iff {value : Int64} : rereadTime value = value ↔ SteadyTime value := by
  constructor
  · intro h
    have hread := TimeUnit.read?_writeInt value
    rw [h] at hread
    exact TimeUnit.steadyTime_of_read? hread
  · exact SteadyTime.rereadTime_eq

end Eaf
