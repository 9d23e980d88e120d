import Eaf.Proofs.Times

/-!
# A thousand times a thousandth

A number of thousandths is rounded twice when it is read as seconds: to the nearest binary64 number,
and again when this number is multiplied by a thousand. In suitable units the multiplication turns
the error of the first rounding into one of at most 500, and the second rounding leaves multiples of
1024 units, where such an error is lost. Only for integers that stand near to the next power of two
it leaves multiples of 512, and the error may be seen as one step up or down. The integer below the
result is then the next smaller one for some of these integers, as their rest by 125 tells, and the
integer itself for all others.

## Main definitions

* `Eaf.FallsShort` — the numbers of thousandths of which one is lost.

## Main results

* `Eaf.Binary64.round?_at_scale` — a ratio that is rounded at a known scale.
* `Eaf.Binary64.nearest_thousand_times_thousandth` — what both roundings leave of a size.
* `Eaf.Binary64.exists_floor_mulNat` — a thousand times the number nearest to a thousandth.
* `Eaf.not_fallsShort_of_dvd` — no eighth of a unit is lost.
-/

namespace Eaf

/-! ### Roundings of ratios -/

namespace Binary64

/-- Rounding to an integer depends on the ratio alone. -/
theorem nearest_mul_right (numerator denominator : Nat) {factor : Nat} (h : 0 < factor) :
    nearest (numerator * factor) (denominator * factor) = nearest numerator denominator := by
  have hrest : 2 * (numerator % denominator * factor) = 2 * (numerator % denominator) * factor :=
    (Nat.mul_assoc _ _ _).symm
  have hgt : 2 * (numerator % denominator) * factor > denominator * factor ↔
      2 * (numerator % denominator) > denominator := Nat.mul_lt_mul_right h
  have heq : (2 * (numerator % denominator) * factor == denominator * factor) =
      (2 * (numerator % denominator) == denominator) := by
    rw [Bool.eq_iff_iff, beq_iff_eq, beq_iff_eq, Nat.mul_left_inj (Nat.ne_of_gt h)]
  simp only [nearest, Nat.mul_div_mul_right _ _ h, Nat.mul_mod_mul_right, hrest, hgt, heq]

/-- Rounding depends on the ratio alone. -/
theorem round?_mul_right (negative : Bool) (numerator denominator : Nat) {factor : Nat}
    (h : 0 < factor) :
    round? negative (numerator * factor) (denominator * factor) =
      round? negative numerator denominator := by
  have hright (power : Nat) : denominator * factor * power = denominator * power * factor :=
    Nat.mul_right_comm _ _ _
  simp only [round?, Nat.mul_div_mul_right _ _ h, hright, nearest_mul_right _ _ h]

/-- A size with 53 bits above a scale is rounded at that scale or a larger one. -/
theorem le_scaleOf {size scale : Nat} (h : powerOfTwo (52 + scale) ≤ size) :
    scale ≤ scaleOf size := by
  have hpos := powerOfTwo_pos (52 + scale)
  have hlog : 52 + scale ≤ size.log2 := (Nat.le_log2 (by omega)).2 h
  unfold scaleOf
  split
  next hsmall =>
    have hlt : powerOfTwo (52 + scale) < powerOfTwo 53 := Nat.lt_of_le_of_lt h hsmall
    have := (Nat.pow_lt_pow_iff_right (by decide : 1 < 2)).1 hlt
    omega
  next => omega

/-- The scale of a size with 53 bits above it. -/
theorem scaleOf_eq {size scale : Nat} (hlow : powerOfTwo (52 + scale) ≤ size)
    (hhigh : size < powerOfTwo (53 + scale)) : scaleOf size = scale :=
  Nat.le_antisymm (scaleOf_le hhigh) (le_scaleOf hlow)

/-- A ratio with 53 bits at a scale is rounded at this scale. -/
theorem round?_at_scale (negative : Bool) (numerator denominator scale : Nat)
    (hlow : denominator * powerOfTwo (52 + scale) ≤ numerator)
    (hhigh : numerator < denominator * powerOfTwo (53 + scale)) (hscale : scale < maxScale) :
    ∃ x, round? negative numerator denominator = some x ∧ x.negative = negative ∧
      x.units = nearest numerator (denominator * powerOfTwo scale) * powerOfTwo scale := by
  have hpos : 0 < denominator := by
    refine Nat.pos_of_ne_zero fun hzero => ?_
    rw [hzero, Nat.zero_mul] at hhigh
    exact Nat.not_lt_zero _ hhigh
  have hs : scaleOf (numerator / denominator) = scale := by
    refine scaleOf_eq ((Nat.le_div_iff_mul_le hpos).2 ?_) ((Nat.div_lt_iff_lt_mul hpos).2 ?_)
    · rwa [Nat.mul_comm]
    · rwa [Nat.mul_comm]
  rw [round?, hs]
  split
  next hcarry =>
    refine ⟨_, if_pos hscale, rfl, ?_⟩
    simp only [hcarry, units, ← powerOfTwo_add]
    congr 1
    omega
  next => exact ⟨_, if_pos (Nat.le_of_lt hscale), rfl, rfl⟩

/-! ### Two roundings of a size -/

/-- A multiple of eight is rounded to a thousandth by the eighth of its rest. -/
theorem nearest_thousandth (whole : Nat) {rest : Nat} (h : rest < 125) :
    nearest (1000 * whole + 8 * rest) 1000 = if rest < 63 then whole else whole + 1 := by
  simp only [nearest, Bool.or_eq_true, Bool.and_eq_true, decide_eq_true_eq, beq_iff_eq]
  split <;> split <;> omega

/-- A multiple of 1024 that was moved down by eight times a rest, or up by as much as is left to a
thousand, is rounded back where multiples of 1024 count. Where those of 512 count it is rounded down
if it was moved down by more than one half of 512, and up if it was moved up by more than that. -/
theorem nearest_moved {moved whole rest : Nat} (hrest : rest < 125)
    (hmoved : moved + 8 * rest = 1024 * whole + if rest < 63 then 0 else 1000) :
    nearest moved 1024 = whole ∧
    nearest moved 512 + (if 32 < rest ∧ rest < 63 then 1 else 0) =
      2 * whole + if 62 < rest ∧ rest < 93 then 1 else 0 := by
  simp only [nearest, Bool.or_eq_true, Bool.and_eq_true, decide_eq_true_eq, beq_iff_eq]
  constructor
  · split <;> split at hmoved <;> omega
  · split at hmoved
    next hdown =>
      rw [if_neg (by omega : ¬ (62 < rest ∧ rest < 93))]
      split <;> split <;> omega
    next hup =>
      rw [if_neg (by omega : ¬ (32 < rest ∧ rest < 63))]
      split <;> split <;> omega

/-- A multiple of 1024 that is rounded to a thousandth and multiplied by it again is off by no more
than 500, which is lost where multiples of 1024 count and may be seen where those of 512 do. -/
theorem nearest_thousand_times_thousandth {size : Nat} (heven : size % 1024 = 0) :
    nearest (nearest size 1000 * 1000) 1024 = size / 1024 ∧
    nearest (nearest size 1000 * 1000) 512 +
        (if 32 < size / 8 % 125 ∧ size / 8 % 125 < 63 then 1 else 0) =
      size / 512 + if 62 < size / 8 % 125 ∧ size / 8 % 125 < 93 then 1 else 0 := by
  have hwhole : size = 1024 * (size / 1024) := by omega
  have hhalves : size / 512 = 2 * (size / 1024) := by omega
  have hrest : size / 8 % 125 < 125 := Nat.mod_lt _ (by decide)
  have hsplit : size = 1000 * (size / 8 / 125) + 8 * (size / 8 % 125) := by omega
  rw [hhalves]
  refine nearest_moved hrest ?_
  rw [← hwhole]
  generalize size / 8 % 125 = rest, size / 8 / 125 = thousandth at hrest hsplit ⊢
  rw [hsplit, nearest_thousandth thousandth hrest]
  split <;> omega

/-- A size that is divided by a thousand and multiplied by it again is rounded twice: once to the
thousandth, and once where its size is. -/
theorem exists_round_mulNat (negative : Bool) (size scale bits : Nat)
    (hlow : 1000 * powerOfTwo 52 ≤ size) (hhigh : size < 1000 * powerOfTwo 53)
    (hlow' : powerOfTwo (52 + bits) ≤ nearest size 1000 * 1000)
    (hhigh' : nearest size 1000 * 1000 < powerOfTwo (53 + bits))
    (hscale : scale + bits < maxScale) :
    ∃ x y, round? negative (size * powerOfTwo scale) 1000 = some x ∧ x.mulNat? 1000 = some y ∧
      y.negative = negative ∧ y.units =
        nearest (nearest size 1000 * 1000) (powerOfTwo bits) * powerOfTwo bits *
          powerOfTwo scale := by
  have hpos := powerOfTwo_pos scale
  obtain ⟨x, hx, hnegative, hunits⟩ := round?_at_scale negative (size * powerOfTwo scale) 1000 scale
    (by rw [powerOfTwo_add, ← Nat.mul_assoc]; exact Nat.mul_le_mul_right _ hlow)
    (by rw [powerOfTwo_add, ← Nat.mul_assoc]; exact Nat.mul_lt_mul_of_pos_right hhigh hpos)
    (Nat.lt_of_le_of_lt (Nat.le_add_right _ _) hscale)
  rw [nearest_mul_right _ _ hpos] at hunits
  have hproduct : x.units * 1000 = nearest size 1000 * 1000 * powerOfTwo scale := by
    rw [hunits, Nat.mul_right_comm]
  obtain ⟨y, hy, hnegative', hunits'⟩ := round?_at_scale negative (x.units * 1000) 1 (bits + scale)
    (by rw [hproduct, ← Nat.add_assoc, powerOfTwo_add, Nat.one_mul]
        exact Nat.mul_le_mul_right _ hlow')
    (by rw [hproduct, ← Nat.add_assoc, powerOfTwo_add, Nat.one_mul]
        exact Nat.mul_lt_mul_of_pos_right hhigh' hpos)
    (by rwa [Nat.add_comm])
  refine ⟨x, y, hx, by rw [mulNat?, hnegative, hy], hnegative', ?_⟩
  rw [hunits', hproduct, Nat.one_mul, powerOfTwo_add, nearest_mul_right _ _ hpos, Nat.mul_assoc]

/-! ### Integers below numbers -/

/-- The integer of a number that is off from an integer by less than one. -/
theorem floor_of_near {x : Binary64} (n offset : Int)
    (hunits : (if x.negative then -(x.units : Int) else x.units) = n * one + offset)
    (hlow : -(one : Int) ≤ offset) (hhigh : offset < one) :
    x.floor = if offset < 0 then n - 1 else n := by
  have hone : (0 : Int) < one := Int.natCast_pos.2 (powerOfTwo_pos 1074)
  rw [floor, hunits]
  split
  next hbelow =>
    refine Int.le_antisymm (Int.lt_add_one_iff.1 ?_) ?_
    · rw [Int.ediv_lt_iff_lt_mul hone, Int.sub_add_cancel]
      omega
    · rw [Int.le_ediv_iff_mul_le hone, Int.sub_mul]
      omega
  next habove =>
    refine Int.le_antisymm (Int.lt_add_one_iff.1 ?_) ?_
    · rw [Int.ediv_lt_iff_lt_mul hone, Int.add_mul]
      omega
    · rw [Int.le_ediv_iff_mul_le hone]
      omega

theorem powerOfTwo_lt {exponent larger : Nat} (h : exponent < larger) :
    powerOfTwo exponent < powerOfTwo larger :=
  Nat.pow_lt_pow_right (by decide) h

theorem powerOfTwo_eq_mul {exponent : Nat} (more : Nat) :
    powerOfTwo (exponent + more) = powerOfTwo more * powerOfTwo exponent := by
  rw [powerOfTwo_add, Nat.mul_comm]

/-- A number that is smaller than an integer by less than one has the integer below as its own if it
is positive, and one that is larger has it if it is negative. -/
theorem floor_of_units_near {x : Binary64} {n : Int} {offset : Nat}
    (hnegative : x.negative = decide (n < 0)) (hpos : 0 < offset) (hless : offset < one) :
    (x.units + offset = n.natAbs * one → x.floor = if n < 0 then n else n - 1) ∧
      (x.units = n.natAbs * one + offset → x.floor = if n < 0 then n - 1 else n) := by
  have hsigned : ((n.natAbs * one : Nat) : Int) = if n < 0 then -(n * one) else n * one := by
    rw [Int.natCast_mul]
    split
    next hneg => rw [Int.ofNat_natAbs_of_nonpos (Int.le_of_lt hneg), Int.neg_mul]
    next hneg => rw [Int.natAbs_of_nonneg (Int.not_lt.1 hneg)]
  by_cases hneg : n < 0
  · rw [if_pos hneg] at hsigned
    rw [decide_eq_true hneg] at hnegative
    rw [if_pos hneg, if_pos hneg]
    refine ⟨fun hunits => ?_, fun hunits => ?_⟩
    · rw [floor_of_near n offset (by rw [if_pos hnegative]; omega) (by omega)
        (by omega), if_neg (by omega)]
    · rw [floor_of_near n (-offset) (by rw [if_pos hnegative]; omega) (by omega)
        (by omega), if_pos (by omega)]
  · rw [if_neg hneg] at hsigned
    have hpositive : ¬ x.negative = true := by rw [hnegative, decide_eq_true_eq]; exact hneg
    rw [if_neg hneg, if_neg hneg]
    refine ⟨fun hunits => ?_, fun hunits => ?_⟩
    · rw [floor_of_near n (-offset) (by rw [if_neg hpositive]; omega) (by omega)
        (by omega), if_pos (by omega)]
    · rw [floor_of_near n offset (by rw [if_neg hpositive]; omega) (by omega)
        (by omega), if_neg (by omega)]

/-! ### Sizes of 59 bits -/

/-- A size of 59 bits that stands in the upper part of its range: twice rounded it comes back, or it
is off by 64 units, as its rest tells. -/
theorem exists_units_upper (negative : Bool) {size bits : Nat} (heven : size % 128 = 0)
    (hlow : 125 * 2 ^ 58 ≤ 64 * size) (hhigh : size < 2 ^ 59) (hbits : bits < 40) :
    ∃ x y, round? negative (size * powerOfTwo (bits + 1016)) 1000 = some x ∧
      x.mulNat? 1000 = some y ∧ y.negative = negative ∧
      y.units + (if 32 < size % 125 ∧ size % 125 < 63 then 1 else 0) * powerOfTwo (bits + 1022) =
        size * powerOfTwo (bits + 1016) +
          (if 62 < size % 125 ∧ size % 125 < 93 then 1 else 0) * powerOfTwo (bits + 1022) := by
  have heven' : 8 * size % 1024 = 0 := by omega
  obtain ⟨hlow', hhigh'⟩ := nearest_near (8 * size) (by decide : 0 < 1000)
  obtain ⟨-, hback⟩ := nearest_thousand_times_thousandth heven'
  obtain ⟨x, y, hx, hy, hnegative, hunits⟩ := exists_round_mulNat negative (8 * size)
    (bits + 1013) 9 (by simp only [powerOfTwo, Nat.pow_eq]; omega)
    (by simp only [powerOfTwo, Nat.pow_eq]; omega) (by simp only [powerOfTwo, Nat.pow_eq]; omega)
    (by simp only [powerOfTwo, Nat.pow_eq]; omega) (by rw [maxScale]; omega)
  have hscale : powerOfTwo (bits + 1016) = 8 * powerOfTwo (bits + 1013) := powerOfTwo_eq_mul 3
  have hcount : powerOfTwo (bits + 1022) = 512 * powerOfTwo (bits + 1013) := powerOfTwo_eq_mul 9
  have hsize : size * powerOfTwo (bits + 1016) = 8 * size * powerOfTwo (bits + 1013) := by
    rw [hscale, ← Nat.mul_assoc, Nat.mul_comm size]
  refine ⟨x, y, by rw [hsize, hx], hy, hnegative, ?_⟩
  rw [Nat.mul_div_cancel_left _ (by decide : 0 < 8)] at hback
  have hwhole : 8 * size = 8 * size / 512 * 512 := by omega
  have hnine : powerOfTwo 9 = 512 := rfl
  rw [hunits, hsize, hcount, hnine]
  generalize powerOfTwo (bits + 1013) = unit
  rw [Nat.mul_assoc, ← Nat.add_mul, hback, Nat.add_mul, ← Nat.mul_assoc, ← hwhole]

/-- A size of 59 bits that does not stand in the upper part of its range comes back when it is twice
rounded. -/
theorem exists_units_lower (negative : Bool) {size bits : Nat} (heven : size % 128 = 0)
    (hlow : 2 ^ 58 ≤ size) (hhigh : 64 * size < 125 * 2 ^ 58) (hbits : bits < 40) :
    ∃ x y, round? negative (size * powerOfTwo (bits + 1016)) 1000 = some x ∧
      x.mulNat? 1000 = some y ∧ y.negative = negative ∧
      y.units = size * powerOfTwo (bits + 1016) := by
  have heven' : 16 * size % 1024 = 0 := by omega
  obtain ⟨hlow', hhigh'⟩ := nearest_near (16 * size) (by decide : 0 < 1000)
  obtain ⟨hback, -⟩ := nearest_thousand_times_thousandth heven'
  have hlarge : powerOfTwo (52 + 10) ≤ nearest (16 * size) 1000 * 1000 := by
    rcases Nat.lt_or_eq_of_le hlow with hlt | rfl
    · simp only [powerOfTwo, Nat.pow_eq]
      omega
    · decide
  obtain ⟨x, y, hx, hy, hnegative, hunits⟩ := exists_round_mulNat negative (16 * size)
    (bits + 1012) 10 (by simp only [powerOfTwo, Nat.pow_eq]; omega)
    (by simp only [powerOfTwo, Nat.pow_eq]; omega) hlarge
    (by simp only [powerOfTwo, Nat.pow_eq]; omega) (by rw [maxScale]; omega)
  have hscale : powerOfTwo (bits + 1016) = 16 * powerOfTwo (bits + 1012) := powerOfTwo_eq_mul 4
  have hsize : size * powerOfTwo (bits + 1016) = 16 * size * powerOfTwo (bits + 1012) := by
    rw [hscale, ← Nat.mul_assoc, Nat.mul_comm size]
  refine ⟨x, y, by rw [hsize, hx], hy, hnegative, ?_⟩
  have hten : powerOfTwo 10 = 1024 := rfl
  have hwhole : 16 * size / 1024 * 1024 = 16 * size := by omega
  rw [hunits, hsize, hten, hback, hwhole]

end Binary64

/-! ### Numbers of thousandths -/

/-- The rest of a number is in the middle of one half exactly if that of its negative is in the
middle of the other. -/
theorem rest_neg_iff (size : Nat) : 32 < -(size : Int) % 125 ∧ -(size : Int) % 125 < 63 ↔
    62 < size % 125 ∧ size % 125 < 93 := by
  obtain ⟨whole, rest, hrest, rfl⟩ : ∃ whole rest, rest < 125 ∧ size = 125 * whole + rest :=
    ⟨size / 125, size % 125, Nat.mod_lt _ (by decide), (Nat.div_add_mod _ _).symm⟩
  omega

/-- The numbers of thousandths of which one is lost when they are read as seconds: of the numbers
between two powers of two they stand near the upper one, and their rest by 125, when they are
scaled to 59 bits, is between one quarter and one half. -/
def FallsShort (n : Int) : Prop :=
  125 * 2 ^ n.natAbs.log2 ≤ 64 * n.natAbs ∧
    32 < n * 2 ^ (58 - n.natAbs.log2) % 125 ∧ n * 2 ^ (58 - n.natAbs.log2) % 125 < 63

instance : DecidablePred FallsShort := fun _ => inferInstanceAs (Decidable (_ ∧ _ ∧ _))

/-- Eighths are kept. -/
theorem not_fallsShort_of_dvd {n : Int} (h : 125 ∣ n) : ¬ FallsShort n := by
  rintro ⟨-, hlow, -⟩
  rw [Int.emod_eq_zero_of_dvd (Int.dvd_mul_of_dvd_left h)] at hlow
  exact absurd hlow (by decide)

namespace Binary64

/-- A number of thousandths is scaled to 59 bits. The size is a multiple of 128 if the number has at
most 40 bits, and tells whether the number falls short. -/
theorem exists_size {n : Int} (hne : n ≠ 0) (hlog : n.natAbs.log2 < 40) :
    ∃ size, size % 128 = 0 ∧ 2 ^ 58 ≤ size ∧ size < 2 ^ 59 ∧
      n.natAbs * one = size * powerOfTwo (n.natAbs.log2 + 1016) ∧
      (FallsShort n ↔ 125 * 2 ^ 58 ≤ 64 * size ∧
        if n < 0 then 62 < size % 125 ∧ size % 125 < 93
        else 32 < size % 125 ∧ size % 125 < 63) := by
  have hne' : n.natAbs ≠ 0 := Int.natAbs_ne_zero.2 hne
  have hlow : 2 ^ n.natAbs.log2 ≤ n.natAbs := Nat.log2_self_le hne'
  have hhigh : n.natAbs < 2 * 2 ^ n.natAbs.log2 := by
    rw [Nat.mul_comm, ← Nat.pow_succ]
    exact Nat.lt_log2_self
  unfold FallsShort
  generalize n.natAbs.log2 = bits at hlow hhigh hlog ⊢
  have hpos : 0 < 2 ^ (58 - bits) := Nat.two_pow_pos _
  have hfull : 2 ^ bits * 2 ^ (58 - bits) = 2 ^ 58 := by
    rw [← Nat.pow_add, Nat.add_sub_cancel' (by omega)]
  have hone : one = 2 ^ (58 - bits) * powerOfTwo (bits + 1016) := by
    have hsum : 58 - bits + (bits + 1016) = 1074 := by omega
    rw [one, ← hsum, powerOfTwo_add]
    rfl
  have hupper : 125 * 2 ^ bits ≤ 64 * n.natAbs ↔
      125 * 2 ^ 58 ≤ 64 * (n.natAbs * 2 ^ (58 - bits)) := by
    rw [← hfull, ← Nat.mul_assoc, ← Nat.mul_assoc, Nat.mul_le_mul_right_iff hpos]
  refine ⟨n.natAbs * 2 ^ (58 - bits), ?_, hfull ▸ Nat.mul_le_mul_right _ hlow, ?_, ?_, ?_⟩
  · obtain ⟨more, hmore⟩ : 2 ^ 7 ∣ 2 ^ (58 - bits) := Nat.pow_dvd_pow 2 (by omega)
    rw [hmore, Nat.mul_left_comm]
    exact Nat.mul_mod_right _ _
  · have hlt := Nat.mul_lt_mul_of_pos_right hhigh hpos
    rwa [Nat.mul_assoc, hfull, ← Nat.pow_succ'] at hlt
  · rw [hone, Nat.mul_assoc]
  · rw [hupper]
    refine and_congr_right fun _ => ?_
    split
    next hneg =>
      have hscaled : n * 2 ^ (58 - bits) = -((n.natAbs * 2 ^ (58 - bits) : Nat) : Int) := by
        rw [Int.natCast_mul, Int.ofNat_natAbs_of_nonpos (Int.le_of_lt hneg), Int.neg_mul,
          Int.neg_neg, Int.natCast_pow]
        rfl
      rw [hscaled, rest_neg_iff]
    next hneg =>
      have hscaled : n * 2 ^ (58 - bits) = (n.natAbs * 2 ^ (58 - bits) : Nat) := by
        rw [Int.natCast_mul, Int.natAbs_of_nonneg (Int.not_lt.1 hneg), Int.natCast_pow]
        rfl
      rw [hscaled]
      omega

/-- **A thousand times a thousandth.** A number of thousandths that is divided by a thousand and
multiplied by it again comes back as itself, or as the next smaller one if it falls short. -/
theorem exists_floor_mulNat {n : Int} (hne : n ≠ 0) (hbound : n.natAbs ≤ 10 ^ 12) :
    ∃ x y, round? (n < 0) (n.natAbs * one) 1000 = some x ∧ x.mulNat? 1000 = some y ∧
      y.floor = if FallsShort n then n - 1 else n := by
  have hlog : n.natAbs.log2 < 40 :=
    (Nat.log2_lt (Int.natAbs_ne_zero.2 hne)).2 (Nat.lt_of_le_of_lt hbound (by decide))
  obtain ⟨size, heven, hlow, hhigh, hsize, hfalls⟩ := exists_size hne hlog
  rw [hsize]
  by_cases hplace : 125 * 2 ^ 58 ≤ 64 * size
  · obtain ⟨x, y, hx, hy, hnegative, hunits⟩ :=
      exists_units_upper (n < 0) heven hplace hhigh hlog
    refine ⟨x, y, hx, hy, ?_⟩
    have hless : powerOfTwo (n.natAbs.log2 + 1022) < one := by
      rw [one]
      exact powerOfTwo_lt (by omega)
    obtain ⟨hsmaller, hlarger⟩ := floor_of_units_near hnegative (powerOfTwo_pos _) hless
    rw [← hsize] at hunits
    rw [and_iff_right hplace] at hfalls
    by_cases hdown : 32 < size % 125 ∧ size % 125 < 63
    · have hup : ¬ (62 < size % 125 ∧ size % 125 < 93) := by omega
      rw [if_pos hdown, if_neg hup, Nat.one_mul, Nat.zero_mul, Nat.add_zero (_ * _)] at hunits
      rw [hsmaller hunits]
      by_cases hneg : n < 0 <;> simp [hfalls, hneg, hdown, hup]
    · rw [if_neg hdown, Nat.zero_mul, Nat.add_zero y.units] at hunits
      by_cases hup : 62 < size % 125 ∧ size % 125 < 93
      · rw [if_pos hup, Nat.one_mul] at hunits
        rw [hlarger hunits]
        by_cases hneg : n < 0 <;> simp [hfalls, hneg, hdown, hup]
      · rw [if_neg hup, Nat.zero_mul, Nat.add_zero (_ * _)] at hunits
        rw [floor_of_units hnegative hunits]
        by_cases hneg : n < 0 <;> simp [hfalls, hneg, hdown, hup]
  · obtain ⟨x, y, hx, hy, hnegative, hunits⟩ :=
      exists_units_lower (n < 0) heven hlow (Nat.lt_of_not_le hplace) hlog
    refine ⟨x, y, hx, hy, ?_⟩
    rw [floor_of_units hnegative (hunits.trans hsize.symm), if_neg fun h => hplace (hfalls.1 h).1]

end Binary64

end Eaf
