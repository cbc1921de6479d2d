import Mathlib.Algebra.Order.Floor.Semifield
import Mathlib.Data.Rat.Floor
import PacedFeed.Proofs.Double.Magnitude

-- Doubles as numbers: what whole numbers they are made into, how near they come to the whole number
-- that they are made from, and how a factor moves them.

namespace PacedFeed.Double

-- Powers are those of the core library, whatever else is imported.
attribute [local instance (2000)] instPowNat

-- The number that a rank stands for.
def magnitude (rank : Nat) : ℚ :=
  units rank / 2 ^ (1074 : Int)

-- The number that a double is. One that is not finite counts as zero.
def value : Double → ℚ
  | .finite negative rank _ => if negative then -magnitude rank else magnitude rank
  | .nan | .infinite _ => 0

section Magnitude

variable {rank rank' : Nat}

theorem units_eq_magnitude (rank : Nat) :
    (units rank : ℚ) = magnitude rank * 2 ^ (1074 : Int) :=
  (div_mul_cancel₀ _ (by positivity)).symm

theorem magnitude_mono (h : rank ≤ rank') : magnitude rank ≤ magnitude rank' := by
  have hunits : (units rank : ℚ) ≤ units rank' := by exact_mod_cast units_mono h
  exact div_le_div_of_nonneg_right hunits (by positivity)

theorem magnitude_unitRank : magnitude unitRank = 1 := by
  rw [magnitude, units_unitRank]
  exact div_self (by positivity)

theorem magnitude_succ (rank : Nat) :
    magnitude (rank + 1) = magnitude rank + 2 ^ ((binade rank : Int) - 1074) := by
  rw [magnitude, magnitude, units_succ, zpow_sub₀ two_ne_zero, ← add_div, zpow_natCast,
    Nat.cast_add, Nat.cast_pow, Nat.cast_ofNat]

theorem value_ofRank (h : rank < magnitudeCount) : (ofRank false rank).value = magnitude rank := by
  rw [ofRank_of_lt false h]
  rfl

-- The factors that are next to one.
theorem le_magnitude_of_unitRank_lt (h : unitRank < rank) :
    1 + 1 / 2 ^ (52 : Nat) ≤ magnitude rank := by
  have hnext : magnitude (unitRank + 1) = 1 + 1 / 2 ^ (52 : Nat) := by
    have hbinade : binade unitRank = 1022 := by decide
    rw [magnitude_succ, magnitude_unitRank, hbinade]
    norm_num
  rw [← hnext]
  exact magnitude_mono h

theorem magnitude_le_of_lt_unitRank (h : rank < unitRank) :
    magnitude rank ≤ 1 - 1 / 2 ^ (53 : Nat) := by
  have hbelow : magnitude (unitRank - 1) + 1 / 2 ^ (53 : Nat) = 1 := by
    have hbinade : binade (unitRank - 1) = 1021 := by decide
    have hnext := magnitude_succ (unitRank - 1)
    have hstep : (2 : ℚ) ^ (((1021 : Nat) : Int) - 1074) = 1 / 2 ^ (53 : Nat) := by norm_num
    rw [hbinade, hstep, Nat.sub_add_cancel (by decide), magnitude_unitRank] at hnext
    exact hnext.symm
  have hle := magnitude_mono (Nat.le_sub_one_of_lt h)
  linarith

end Magnitude

section Whole

-- What a mode makes of any number, with a half away from zero if it is the nearest.
def Whole.round (mode : Whole) (value : ℚ) : Nat :=
  match mode with
  | .ceiling => ⌈value⌉₊
  | .nearest => ⌊value + 1 / 2⌋₊
  | .floor => ⌊value⌋₊

theorem Whole.quotient_eq (mode : Whole) (num : Nat) {den : Nat} (h : 0 < den) :
    mode.quotient num den = mode.round (num / den) := by
  have hden : (0 : ℚ) < den := by exact_mod_cast h
  cases mode with
  | ceiling =>
      refine eq_of_forall_ge_iff fun n => ?_
      rw [Whole.quotient, Whole.round, Nat.ceil_le, div_le_iff₀ hden, ← Nat.lt_succ_iff,
        Nat.div_lt_iff_lt_mul h, Nat.succ_mul]
      have hcast : (num : ℚ) ≤ n * den ↔ num ≤ n * den := by exact_mod_cast Iff.rfl
      rw [hcast]
      omega
  | nearest =>
      have hvalue : (num / den + 1 / 2 : ℚ) = (2 * num + den : Nat) / (2 * den : Nat) := by
        push_cast
        field_simp
      rw [Whole.quotient, Whole.round, hvalue, Nat.floor_div_eq_div]
  | floor => rw [Whole.quotient, Whole.round, Nat.floor_div_eq_div]

theorem Whole.round_mono (mode : Whole) {low high : ℚ} (h : low ≤ high) :
    mode.round low ≤ mode.round high := by
  cases mode with
  | ceiling => exact Nat.ceil_mono h
  | nearest => exact Nat.floor_mono (by linarith)
  | floor => exact Nat.floor_mono h

theorem Whole.round_natCast (mode : Whole) (n : Nat) : mode.round n = n := by
  cases mode with
  | ceiling => exact Nat.ceil_natCast n
  | nearest =>
      rw [Whole.round, Nat.floor_eq_iff (by positivity)]
      exact ⟨by linarith, by linarith⟩
  | floor => exact Nat.floor_natCast n

-- All words are below the infinite.
theorem wordLimit_le_magnitude {rank : Nat} (h : magnitudeCount ≤ rank) :
    ((wordLimit : Nat) : ℚ) ≤ magnitude rank := by
  have hrounds := rounds_ofNat wordLimit
  by_contra hlt
  have hle : rank ≤ nearestRank wordLimit 1 1074 := by
    refine (rounds_units rank).mono hrounds ?_
    rw [magnitude, not_le, div_lt_iff₀ (by positivity)] at hlt
    exact hlt.le
  have hlow : nearestRank wordLimit 1 1074 < magnitudeCount := by decide +kernel
  omega

theorem toWord_ofRank (mode : Whole) (rank : Nat) :
    (ofRank false rank).toWord mode = min (mode.round (magnitude rank)) (wordLimit - 1) := by
  by_cases h : rank < magnitudeCount
  · have hden : 0 < (scaled (significand rank) 1 ((binade rank : Int) - 1074)).2 :=
      scaled_pos Nat.one_pos _
    have hvalue := scaled_eq (significand rank) 1 ((binade rank : Int) - 1074)
    have hmagnitude : (significand rank : ℚ) / (1 : Nat) * 2 ^ ((binade rank : Int) - 1074) =
        magnitude rank := by
      rw [magnitude, cast_units, zpow_sub₀ two_ne_zero, Nat.cast_one, div_one, mul_div_assoc]
    rw [ofRank_of_lt false h, ← hmagnitude, ← hvalue, ← mode.quotient_eq _ hden]
    rfl
  · have hlarge := mode.round_mono (wordLimit_le_magnitude (Nat.not_lt.mp h))
    rw [mode.round_natCast] at hlarge
    rw [ofRank_of_ge false (Nat.not_lt.mp h), Nat.min_eq_right (by omega)]
    rfl

end Whole

section OfNat

variable {n rank : Nat}

-- Magnitudes are as near to a whole number as the one that it is rounded to, or they lie on the
-- other side of it.
theorem lt_magnitude_of_lt (h : nearestRank n 1 1074 < rank) : n < magnitude rank := by
  by_contra hle
  rw [magnitude, not_lt, div_le_iff₀ (by positivity)] at hle
  exact absurd ((rounds_units rank).mono (rounds_ofNat n) hle) (Nat.not_le.mpr h)

theorem magnitude_lt_of_lt (h : rank < nearestRank n 1 1074) : magnitude rank < n := by
  by_contra hle
  rw [magnitude, not_lt, le_div_iff₀ (by positivity)] at hle
  exact absurd ((rounds_ofNat n).mono (rounds_units rank) hle) (Nat.not_le.mpr h)

theorem magnitude_eq_of_units {digits shift : Nat} (h : units rank = digits * 2 ^ shift) :
    magnitude rank = digits * 2 ^ ((shift : Int) - 1074) := by
  rw [magnitude, h, zpow_sub₀ two_ne_zero, zpow_natCast, Nat.cast_mul, Nat.cast_pow,
    Nat.cast_ofNat, mul_div_assoc]

-- Whole numbers of no more digits than a significand are doubles.
theorem magnitude_ofNat (h : n < 2 ^ (53 : Nat)) : magnitude (nearestRank n 1 1074) = n := by
  obtain ⟨rank, hunits⟩ := exists_units_eq h 1074
  have hmagnitude : magnitude rank = n := by
    rw [magnitude_eq_of_units hunits, Nat.cast_ofNat, sub_self, zpow_zero, mul_one]
  obtain hlt | heq | hlt := Nat.lt_trichotomy (nearestRank n 1 1074) rank
  · exact absurd (lt_magnitude_of_lt hlt) (by rw [hmagnitude]; exact lt_irrefl _)
  · rw [heq, hmagnitude]
  · exact absurd (magnitude_lt_of_lt hlt) (by rw [hmagnitude]; exact lt_irrefl _)

-- Where the steps are wider than one, there are only whole numbers.
theorem exists_magnitude_eq_natCast (h : 1074 ≤ binade rank) : ∃ n : Nat, magnitude rank = n := by
  obtain ⟨places, hplaces⟩ := Nat.exists_eq_add_of_le h
  have hshift : ((binade rank : Nat) : Int) - 1074 = places := by omega
  refine ⟨significand rank * 2 ^ places, ?_⟩
  rw [magnitude_eq_of_units (rfl : units rank = significand rank * 2 ^ binade rank), hshift,
    zpow_natCast]
  push_cast
  rfl

theorem le_binade_ofNat (h : 2 ^ (52 : Nat) ≤ n) : 1074 ≤ binade (nearestRank n 1 1074) := by
  have hle := nearestRank_mono h
  have hrank : nearestRank (2 ^ (52 : Nat)) 1 1074 = 1075 * 2 ^ (52 : Nat) :=
    nearestRank_of_significand 0 (by decide) (by decide)
  rw [hrank] at hle
  simp only [binade, Nat.reducePow] at hle ⊢
  omega

-- However a whole number is rounded, the result is whole.
theorem exists_magnitude_ofNat (n : Nat) : ∃ m : Nat, magnitude (nearestRank n 1 1074) = m := by
  by_cases h : n < 2 ^ (52 : Nat)
  · exact ⟨n, magnitude_ofNat (h.trans (by decide))⟩
  · exact exists_magnitude_eq_natCast (le_binade_ofNat (Nat.not_lt.mp h))

theorem unitRank_le_ofNat (h : 0 < n) : unitRank ≤ nearestRank n 1 1074 := by
  rw [← nearestRank_one]
  exact nearestRank_mono h

theorem ofNat_ne_zero (h : 0 < n) : nearestRank n 1 1074 ≠ 0 :=
  Nat.ne_of_gt (Nat.lt_of_lt_of_le (by decide) (unitRank_le_ofNat h))

theorem binade_ofNat_ne_zero (h : 0 < n) : binade (nearestRank n 1 1074) ≠ 0 := by
  have hle := unitRank_le_ofNat h
  simp only [binade, unitRank, Nat.reducePow] at hle ⊢
  omega

end OfNat

section Factor

variable {rank factor product bound : Nat}
variable (h : Rounds (units rank * magnitude factor) product)
include h

-- A product stays on its side of any magnitude.
theorem product_le_of_le (hle : magnitude rank * magnitude factor ≤ magnitude bound) :
    product ≤ bound := by
  refine h.le_of_le_units ?_
  rw [units_eq_magnitude, units_eq_magnitude, mul_right_comm]
  exact mul_le_mul_of_nonneg_right hle (by positivity)

theorem le_product_of_le (hle : magnitude bound ≤ magnitude rank * magnitude factor) :
    bound ≤ product := by
  refine (rounds_units bound).mono h ?_
  rw [units_eq_magnitude, units_eq_magnitude, mul_right_comm]
  exact mul_le_mul_of_nonneg_right hle (by positivity)

theorem le_product (hf : unitRank ≤ factor) : rank ≤ product := by
  have hone := magnitude_mono hf
  rw [magnitude_unitRank] at hone
  exact (rounds_units rank).mono h (le_mul_of_one_le_right (Nat.cast_nonneg _) hone)

theorem product_le (hf : factor ≤ unitRank) : product ≤ rank := by
  have hone := magnitude_mono hf
  rw [magnitude_unitRank] at hone
  exact h.le_of_le_units (mul_le_of_le_one_right (Nat.cast_nonneg _) hone)

-- A factor that is not one moves a magnitude, however close to one it is. Only among the least
-- magnitudes, in the first binade, the steps are too wide for that.
theorem lt_product (hb : binade rank ≠ 0) (hf : unitRank < factor) : rank < product := by
  refine (rounds_units (rank + 1)).mono h ?_
  have hwide : (2 : ℚ) ^ (52 : Nat) ≤ significand rank := by
    exact_mod_cast (le_significand rank).resolve_left hb
  have hfactor := le_magnitude_of_unitRank_lt hf
  calc
    (units (rank + 1) : ℚ) = units rank + 2 ^ binade rank := by
      rw [units_succ]
      push_cast
      rfl
    _ ≤ units rank + units rank * (1 / 2 ^ (52 : Nat)) := by
      gcongr
      rw [cast_units, zpow_natCast, mul_one_div, le_div_iff₀ (by positivity), mul_comm]
      exact mul_le_mul_of_nonneg_right hwide (by positivity)
    _ = units rank * (1 + 1 / 2 ^ (52 : Nat)) := by ring
    _ ≤ units rank * magnitude factor := by gcongr

omit h in
theorem divNearest_below {digits : Nat} (hlow : 2 ^ (52 : Nat) < digits)
    (hlt : digits < 2 ^ (53 : Nat)) :
    digits * (2 ^ (53 : Nat) - 1) < 2 ^ (53 : Nat) * 2 ^ (53 : Nat) ∧
      2 ^ (53 : Nat) * 2 ^ (52 : Nat) ≤ digits * (2 ^ (53 : Nat) - 1) ∧
      divNearest (digits * (2 ^ (53 : Nat) - 1)) (2 ^ (53 : Nat)) = digits - 1 := by
  simp only [divNearest, Nat.reducePow] at hlow hlt ⊢
  refine ⟨by omega, by omega, ?_⟩
  split <;> omega

omit h in
-- The least that a factor below one can take off leads to the next lower magnitude.
theorem rounds_below (hb : binade rank ≠ 0) :
    Rounds (units rank * (1 - 1 / 2 ^ (53 : Nat))) (rank - 1) := by
  have hwide := (le_significand rank).resolve_left hb
  have hlt := significand_lt rank
  by_cases hleast : significand rank = 2 ^ (52 : Nat)
  · -- below the first magnitude of a binade, the steps are half as wide
    have hbinade : binade (rank - 1) + 1 = binade rank := by
      simp only [significand, binade, Nat.reducePow] at hleast hb ⊢
      omega
    have hnext := units_succ (rank - 1)
    have hpos : rank - 1 + 1 = rank := by
      simp only [significand, binade, Nat.reducePow] at hleast hb ⊢
      omega
    rw [hpos] at hnext
    have hvalue : (units rank : ℚ) * (1 - 1 / 2 ^ (53 : Nat)) = units (rank - 1) := by
      have hunits : (units rank : ℚ) = 2 ^ (53 : Nat) * 2 ^ binade (rank - 1) := by
        rw [units, hleast, ← hbinade]
        push_cast
        ring
      have hnext' : (units rank : ℚ) = units (rank - 1) + 2 ^ binade (rank - 1) := by
        exact_mod_cast hnext
      have htaken : (units rank : ℚ) * (1 / 2 ^ (53 : Nat)) = 2 ^ binade (rank - 1) := by
        rw [hunits]
        field_simp
      linarith
    rw [hvalue]
    exact rounds_units (rank - 1)
  · have hsum := binade_add_significand rank
    have hlow : 2 ^ (52 : Nat) < significand rank := by omega
    obtain ⟨hfits, hfull, hnearest⟩ := divNearest_below hlow hlt
    refine ⟨binade rank, significand rank * (2 ^ (53 : Nat) - 1), 2 ^ (53 : Nat), by decide,
      ?_, hfits, .inr hfull, ?_⟩
    · rw [cast_units, Nat.cast_mul, Nat.cast_sub (by decide)]
      push_cast
      ring
    · rw [hnearest]
      omega

theorem product_lt (hb : binade rank ≠ 0) (hf : factor < unitRank) : product < rank := by
  have hfactor := magnitude_le_of_lt_unitRank hf
  have hle : product ≤ rank - 1 :=
    h.mono (rounds_below hb) (mul_le_mul_of_nonneg_left hfactor (Nat.cast_nonneg _))
  have hpos : rank ≠ 0 := by
    rintro rfl
    exact hb rfl
  omega

end Factor

end PacedFeed.Double
