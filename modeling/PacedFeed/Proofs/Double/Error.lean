import PacedFeed.Proofs.Double.Seconds

-- How far rounding moves a number, in parts of the number itself.

namespace PacedFeed.Double

-- Powers are those of the core library, whatever else is imported.
attribute [local instance (2000)] instPowNat

-- The largest part of a number that is lost or added when it is rounded once.
def roundoff : ℚ :=
  1 / 2 ^ (53 : Nat)

theorem roundoff_pos : 0 < roundoff := by
  norm_num [roundoff]

section Rounding

variable {rank : Nat}

-- The steps of a binade have its width. One past the last is the first of the next binade.
theorem units_of_steps (binade : Nat) {steps : Nat} (hlow : 2 ^ (52 : Nat) ≤ steps)
    (hhigh : steps ≤ 2 ^ (53 : Nat)) :
    units (binade * 2 ^ (52 : Nat) + steps) = steps * 2 ^ binade := by
  obtain hlt | rfl := Nat.lt_or_eq_of_le hhigh
  · have hbinade : Double.binade (binade * 2 ^ (52 : Nat) + steps) = binade := by
      simp only [Double.binade, Nat.reducePow] at hlow hlt ⊢
      omega
    rw [units, significand, hbinade, Nat.add_sub_cancel_left]
  · have hbinade : Double.binade (binade * 2 ^ (52 : Nat) + 2 ^ (53 : Nat)) = binade + 1 := by
      simp only [Double.binade, Nat.reducePow]
      omega
    have hsignificand : significand (binade * 2 ^ (52 : Nat) + 2 ^ (53 : Nat)) = 2 ^ (52 : Nat) := by
      simp only [significand, hbinade, Nat.reducePow]
      omega
    rw [units, hbinade, hsignificand, Nat.pow_succ, Nat.pow_succ]
    ring

theorem Rounds.error {value : ℚ} (h : Rounds value rank) (hv : 2 ^ (52 : Int) ≤ value) :
    |units rank - value| ≤ roundoff * value := by
  obtain ⟨binade, num, den, hden, hvalue, hlt, hle, rfl⟩ := h
  have hden' : (0 : ℚ) < den := by exact_mod_cast hden
  have hfull : den * 2 ^ (52 : Nat) ≤ num := by
    rcases hle with rfl | hle
    · rw [hvalue, Nat.cast_zero, zpow_zero, mul_one, le_div_iff₀ hden', mul_comm] at hv
      exact_mod_cast hv
    · exact hle
  have hwide : 2 ^ (52 : Nat) ≤ (num / den : ℚ) := by
    rw [le_div_iff₀ hden', mul_comm]
    exact_mod_cast hfull
  have hunits := units_of_steps binade (le_divNearest hden hfull) (divNearest_le hlt)
  have hwidth : (0 : ℚ) < 2 ^ binade := by positivity
  have hnear := (nearestTo_divNearest num hden).near
  rw [hunits, hvalue, zpow_natCast, Nat.cast_mul, Nat.cast_pow, Nat.cast_ofNat, ← sub_mul, abs_mul,
    abs_of_pos hwidth, abs_sub_comm, ← mul_assoc]
  refine mul_le_mul_of_nonneg_right (hnear.trans ?_) hwidth.le
  calc
    (1 / 2 : ℚ) = roundoff * 2 ^ (52 : Nat) := by norm_num [roundoff]
    _ ≤ roundoff * (num / den) := mul_le_mul_of_nonneg_left hwide roundoff_pos.le

theorem magnitude_error {exact : ℚ} (h : Rounds (exact * 2 ^ (1074 : Int)) rank)
    (hx : exact = 0 ∨ 2 ^ (-1022 : Int) ≤ exact) : |magnitude rank - exact| ≤ roundoff * exact := by
  rcases hx with rfl | hx
  · rw [zero_mul] at h
    rw [h.unique rounds_zero, magnitude_zero, mul_zero, sub_zero, abs_zero]
  · have hscale : (0 : ℚ) < 2 ^ (1074 : Int) := by positivity
    have hlow : 2 ^ (52 : Int) ≤ exact * 2 ^ (1074 : Int) :=
      calc
        (2 : ℚ) ^ (52 : Int) = 2 ^ (-1022 : Int) * 2 ^ (1074 : Int) := by
          rw [← zpow_add₀ two_ne_zero]
          norm_num
        _ ≤ exact * 2 ^ (1074 : Int) := mul_le_mul_of_nonneg_right hx hscale.le
    have herror := h.error hlow
    rw [units_eq_magnitude, ← sub_mul, abs_mul, abs_of_pos hscale, ← mul_assoc] at herror
    exact le_of_mul_le_mul_right herror hscale

end Rounding

-- A value that came from an exact one by so many roundings in a row.
def Near (count : Nat) (exact value : ℚ) : Prop :=
  |value - exact| ≤ ((1 + roundoff) ^ count - 1) * exact

section Near

variable {count count' : Nat} {exact exact' value value' : ℚ}

theorem near_self (exact : ℚ) : Near 0 exact exact := by
  rw [Near, sub_self, abs_zero, pow_zero, sub_self, zero_mul]

theorem Near.add (h : Near count exact value) (h' : Near count exact' value') :
    Near count (exact + exact') (value + value') := by
  rw [Near, add_sub_add_comm, mul_add]
  exact (abs_add_le _ _).trans (add_le_add h h')

theorem Near.mul {factor : ℚ} (h : Near count exact value) (hf : 0 ≤ factor) :
    Near count (exact * factor) (value * factor) := by
  rw [Near, ← sub_mul, abs_mul, abs_of_nonneg hf, ← mul_assoc]
  exact mul_le_mul_of_nonneg_right h hf

-- Another rounding adds a part of what there was, the parts of the others included.
theorem Near.step (h : Near count exact value) (hs : |value' - value| ≤ roundoff * value) :
    Near (count + 1) exact value' := by
  have hvalue : value ≤ (1 + roundoff) ^ count * exact := by
    have habove := (abs_le.mp h).2
    linarith
  calc
    |value' - exact| ≤ |value' - value| + |value - exact| := abs_sub_le _ _ _
    _ ≤ roundoff * ((1 + roundoff) ^ count * exact) + ((1 + roundoff) ^ count - 1) * exact :=
        add_le_add (hs.trans (mul_le_mul_of_nonneg_left hvalue roundoff_pos.le)) h
    _ = ((1 + roundoff) ^ (count + 1) - 1) * exact := by ring

-- As long as there are few of them, not even half of it is lost.
theorem Near.bounds (h : Near count exact value) (hc : count ≤ 3) (hx : 0 ≤ exact) :
    exact / 2 ≤ value ∧ value ≤ 2 * exact := by
  have hgrowth : (1 + roundoff) ^ count ≤ 3 / 2 :=
    calc
      (1 + roundoff) ^ count ≤ (1 + roundoff) ^ 3 :=
        pow_le_pow_right₀ (le_add_of_nonneg_right roundoff_pos.le) hc
      _ ≤ 3 / 2 := by norm_num [roundoff]
  have hpart : ((1 + roundoff) ^ count - 1) * exact ≤ exact / 2 := by
    have hle := mul_le_mul_of_nonneg_right hgrowth hx
    linarith
  obtain ⟨hlow, hhigh⟩ := abs_le.mp (h.trans hpart)
  exact ⟨by linarith, by linarith⟩

-- What is not among the least magnitudes is rounded by its own part.
theorem Near.round {rank : Nat} (h : Near count exact value) (hc : count ≤ 3)
    (hr : Rounds (value * 2 ^ (1074 : Int)) rank) (hx : exact = 0 ∨ 2 ^ (-1021 : Int) ≤ exact) :
    Near (count + 1) exact (magnitude rank) := by
  refine h.step (magnitude_error hr ?_)
  refine hx.imp (fun hzero => ?_) fun hlow => ?_
  · obtain ⟨hl, hu⟩ := h.bounds hc hzero.ge
    rw [hzero] at hl hu
    linarith
  · have hpos : (0 : ℚ) ≤ exact := (by positivity : (0 : ℚ) ≤ 2 ^ (-1021 : Int)).trans hlow
    calc
      (2 : ℚ) ^ (-1022 : Int) = 2 ^ (-1021 : Int) / 2 := by
        rw [div_eq_mul_inv, ← zpow_sub_one₀ two_ne_zero]
        rfl
      _ ≤ exact / 2 := div_le_div_of_nonneg_right hlow two_pos.le
      _ ≤ value := (h.bounds hc hpos).1

end Near

theorem near_ofNat (n : Nat) : Near 1 n (magnitude (nearestRank n 1 1074)) := by
  refine (near_self n).round (by decide) (rounds_ofNat n) ?_
  obtain rfl | hpos := Nat.eq_zero_or_pos n
  · exact .inl Nat.cast_zero
  · have hone : (1 : ℚ) ≤ n := by exact_mod_cast hpos
    have hlow : (2 : ℚ) ^ (-1021 : Int) ≤ 1 := zpow_le_one_of_nonpos₀ one_le_two (by decide)
    exact .inr (hlow.trans hone)

section Finite

variable {rank : Nat}

-- All magnitudes below the first one that is not finite.
theorem lt_of_magnitude_lt (h : magnitude rank < 2 ^ (1024 : Int)) : rank < magnitudeCount := by
  by_contra hle
  have hunits : (units magnitudeCount : ℚ) = 2 ^ (2098 : Int) := by
    have hsignificand : significand magnitudeCount = 2 ^ (52 : Nat) := by decide
    have hbinade : binade magnitudeCount = 2046 := by decide
    rw [cast_units, hsignificand, hbinade, Nat.cast_pow, Nat.cast_ofNat, ← zpow_natCast,
      ← zpow_add₀ two_ne_zero]
    rfl
  have hmagnitude : magnitude magnitudeCount = 2 ^ (1024 : Int) := by
    rw [magnitude, hunits, ← zpow_sub₀ two_ne_zero]
    norm_num
  exact absurd (hmagnitude ▸ magnitude_mono (Nat.not_lt.mp hle)) (not_le.mpr h)

theorem Near.lt_magnitudeCount {count : Nat} {exact : ℚ} (h : Near count exact (magnitude rank))
    (hc : count ≤ 3) (hx : 0 ≤ exact) (hlt : exact < 2 ^ (1023 : Int)) : rank < magnitudeCount := by
  refine lt_of_magnitude_lt ?_
  calc
    magnitude rank ≤ 2 * exact := (h.bounds hc hx).2
    _ < 2 * 2 ^ (1023 : Int) := mul_lt_mul_of_pos_left hlt two_pos
    _ = 2 ^ (1024 : Int) := by
        rw [mul_comm, ← zpow_add_one₀ two_ne_zero]
        rfl

end Finite

section Durations

theorem cast_lt_of_duration {duration : Nat}
    (h : duration < wordLimit * Duration.nanosPerSecond) : (duration : ℚ) < 2 ^ (1023 : Int) := by
  have hcast : (duration : ℚ) < (wordLimit * Duration.nanosPerSecond : Nat) := by exact_mod_cast h
  calc
    (duration : ℚ) < (wordLimit * Duration.nanosPerSecond : Nat) := hcast
    _ ≤ 2 ^ (94 : Int) := by norm_num [Duration.nanosPerSecond]
    _ ≤ 2 ^ (1023 : Int) := zpow_le_zpow_right₀ one_le_two (by decide)

-- Even a nanosecond is far from the least magnitudes.
theorem least_le_of_nanos {part : ℚ} (h : 1 / 10 ^ (9 : Nat) ≤ part) :
    2 ^ (-1021 : Int) ≤ part := by
  refine le_trans ?_ h
  calc
    (2 : ℚ) ^ (-1021 : Int) ≤ 2 ^ (-30 : Int) := zpow_le_zpow_right₀ one_le_two (by decide)
    _ ≤ 1 / 10 ^ (9 : Nat) := by norm_num

-- A quotient of whole numbers that both are doubles is rounded once.
theorem near_rest {nanos quotient : Nat} (h : nanos < Duration.nanosPerSecond)
    (hr : Rounds (units (nearestRank nanos 1 1074) /
      units (nearestRank Duration.nanosPerSecond 1 1074) * 2 ^ (1074 : Int)) quotient) :
    Near 1 (nanos / 10 ^ (9 : Nat)) (magnitude quotient) := by
  have hscale : (2 : ℚ) ^ (1074 : Int) ≠ 0 := by positivity
  have hvalue : (units (nearestRank nanos 1 1074) : ℚ) /
      units (nearestRank Duration.nanosPerSecond 1 1074) = nanos / 10 ^ (9 : Nat) := by
    rw [units_eq_magnitude, units_eq_magnitude, mul_div_mul_right _ _ hscale,
      magnitude_ofNat (h.trans (by decide)), magnitude_ofNat (by decide)]
    norm_num [Duration.nanosPerSecond]
  rw [hvalue] at hr
  refine (near_self _).round (by decide) hr ?_
  obtain rfl | hpos := Nat.eq_zero_or_pos nanos
  · exact .inl (by simp)
  · refine .inr (least_le_of_nanos ?_)
    have hone : (1 : ℚ) ≤ nanos := by exact_mod_cast hpos
    gcongr

-- The seconds of a duration are rounded as they are converted and when they are added.
theorem exists_near_ofDuration {duration : Nat}
    (h : duration < wordLimit * Duration.nanosPerSecond) :
    ∃ rank < magnitudeCount, ofDuration duration = ofRank false rank ∧
      Near 2 (duration / 10 ^ (9 : Nat)) (magnitude rank) := by
  let whole := duration / Duration.nanosPerSecond
  let nanos := duration % Duration.nanosPerSecond
  have hnanos : nanos < Duration.nanosPerSecond := Nat.mod_lt _ (by decide)
  have hwhole : whole < wordLimit := Nat.div_lt_of_lt_mul (by rwa [Nat.mul_comm])
  have hsplit : (whole : ℚ) + nanos / 10 ^ (9 : Nat) = duration / 10 ^ (9 : Nat) := by
    have hdiv : ((Duration.nanosPerSecond * whole + nanos : Nat) : ℚ) = duration :=
      congrArg Nat.cast (Nat.div_add_mod duration Duration.nanosPerSecond)
    rw [← hdiv]
    push_cast [Duration.nanosPerSecond]
    ring
  obtain ⟨quotient, hquotient, hrest⟩ := ofRank_div_ofRank
    (nearestRank_lt (hnanos.trans (by decide)))
    (by decide : nearestRank Duration.nanosPerSecond 1 1074 < magnitudeCount) (by decide)
  obtain ⟨sum, hsum, hrounds⟩ := ofRank_add_ofRank (nearestRank whole 1 1074) quotient
  have hparts := (near_ofNat whole).add (near_rest hnanos hrest)
  have hnear : Near 2 (duration / 10 ^ (9 : Nat)) (magnitude sum) := by
    rw [hsplit] at hparts
    refine hparts.round (by decide) ?_ ?_
    · rwa [add_mul, ← units_eq_magnitude, ← units_eq_magnitude]
    · obtain rfl | hpos := Nat.eq_zero_or_pos duration
      · exact .inl (by simp)
      · refine .inr (least_le_of_nanos ?_)
        have hone : (1 : ℚ) ≤ duration := by exact_mod_cast hpos
        gcongr
  refine ⟨sum, hnear.lt_magnitudeCount (by decide) (by positivity) ?_, ?_, hnear⟩
  · exact (div_le_self (Nat.cast_nonneg _) (by norm_num)).trans_lt (cast_lt_of_duration h)
  · rw [ofDuration, ofNat_eq, ofNat_eq, ofNat_eq, hquotient, hsum]

end Durations

end PacedFeed.Double
