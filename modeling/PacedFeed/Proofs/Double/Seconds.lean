import Mathlib.Algebra.Order.Ring.Abs
import PacedFeed.Proofs.Double.Whole

-- Numbers of seconds as durations, told by the number and not by how it is written.

namespace PacedFeed.Double

-- Powers are those of the core library, whatever else is imported.
attribute [local instance (2000)] instPowNat

-- The whole number nearest to a number. Of two that are as near as each other, it is the even one.
structure NearestTo (value : ℚ) (n : Nat) : Prop where
  near : |value - n| ≤ 1 / 2
  even : |value - n| = 1 / 2 → n % 2 = 0

section Nearest

variable {value : ℚ} {n m num den : Nat}

theorem NearestTo.unique (h : NearestTo value n) (h' : NearestTo value m) : n = m := by
  by_contra hne
  wlog hlt : n < m generalizing n m
  · exact this h' h (Ne.symm hne) (by omega)
  have hlow := (abs_le.mp h.near).2
  have hhigh := (abs_le.mp h'.near).1
  -- only the middle between two neighbours is that near to both, and they are not both even
  have hnext : m = n + 1 := by
    have hle : (m : ℚ) ≤ (n + 1 : Nat) := by
      push_cast
      linarith
    have hle' : m ≤ n + 1 := by exact_mod_cast hle
    omega
  subst hnext
  push_cast at hhigh
  have hmiddle : value = n + 1 / 2 := by linarith
  have heven := h.even (by rw [hmiddle]; norm_num)
  have heven' := h'.even (by rw [hmiddle]; push_cast; norm_num)
  omega

theorem nearestTo_divNearest (num : Nat) (h : 0 < den) :
    NearestTo (num / den) (divNearest num den) := by
  have hden : (0 : ℚ) < den := by exact_mod_cast h
  let rest : ℚ := (num % den : Nat) / den
  have hvalue : (num : ℚ) / den = (num / den : Nat) + rest := by
    have hsplit : (num : ℚ) = den * (num / den : Nat) + (num % den : Nat) := by
      exact_mod_cast (Nat.div_add_mod num den).symm
    rw [div_eq_iff hden.ne', add_mul, div_mul_cancel₀ _ hden.ne', hsplit, mul_comm]
  have hpos : 0 ≤ rest := by positivity
  have hlt : rest < 1 := by
    rw [div_lt_one hden]
    exact_mod_cast Nat.mod_lt num h
  have hbelow : rest < 1 / 2 ↔ 2 * (num % den) < den := by
    rw [div_lt_div_iff₀ hden two_pos, one_mul, mul_comm]
    exact_mod_cast Iff.rfl
  have hhalf : rest = 1 / 2 ↔ 2 * (num % den) = den := by
    rw [div_eq_div_iff hden.ne' two_ne_zero, one_mul, mul_comm]
    exact_mod_cast Iff.rfl
  unfold divNearest
  split
  · rename_i hdown
    have hdist : |(num : ℚ) / den - (num / den : Nat)| = rest := by
      rw [hvalue, add_sub_cancel_left, abs_of_nonneg hpos]
    rw [← hbelow, ← hhalf] at hdown
    refine ⟨?_, fun he => ?_⟩
    · rw [hdist]
      exact hdown.elim le_of_lt fun hmiddle => le_of_eq hmiddle.1
    · rw [hdist] at he
      exact (hdown.resolve_left he.not_lt).2
  · rename_i hup
    have hdist : |(num : ℚ) / den - (num / den + 1 : Nat)| = 1 - rest := by
      rw [hvalue, abs_of_nonpos (by push_cast; linarith), Nat.cast_succ]
      ring
    rw [← hbelow, ← hhalf, not_or, not_lt, not_and] at hup
    refine ⟨?_, fun he => ?_⟩
    · rw [hdist]
      linarith
    · rw [hdist] at he
      have hodd := hup.2 (by linarith)
      omega

theorem nearestTo_iff (h : 0 < den) : NearestTo (num / den) n ↔ n = divNearest num den :=
  ⟨fun hn => hn.unique (nearestTo_divNearest num h), fun hn => hn ▸ nearestTo_divNearest num h⟩

end Nearest

-- How long a number of seconds lasts: the nearest whole number of nanoseconds. Nothing lasts less
-- than no time, or 2^64 seconds and more.
structure Lasts (seconds : Double) (duration : Duration) : Prop where
  isFinite : seconds.isFinite = true
  nonneg : 0 ≤ seconds
  nearest : NearestTo (seconds.value * Duration.nanosPerSecond) duration
  lt : duration < wordLimit * Duration.nanosPerSecond

section Lasts

variable {seconds : Double} {duration : Duration} {negative : Bool} {rank : Nat}

theorem not_lasts (h : seconds.isFinite = false) : ¬seconds.Lasts duration := fun hlasts =>
  Bool.false_ne_true (h.symm.trans hlasts.isFinite)

theorem nonneg_finite_iff (h : rank < magnitudeCount) :
    0 ≤ Double.finite negative rank h ↔ ¬(negative = true ∧ rank ≠ 0) := by
  rw [Double.le_iff]
  cases negative with
  | true => simp [place?, zero_eq, ofRank]
  | false => simp [place?, zero_eq, ofRank]

theorem magnitude_zero : magnitude 0 = 0 := by
  rw [magnitude, units_eq_zero_iff.mpr rfl, Nat.cast_zero, zero_div]

-- A negative zero is zero.
theorem value_of_nonneg (h : rank < magnitudeCount) (hn : ¬(negative = true ∧ rank ≠ 0)) :
    (Double.finite negative rank h).value = magnitude rank := by
  cases negative with
  | false => rfl
  | true =>
      obtain rfl : rank = 0 := by simpa using hn
      rw [value, if_pos rfl, magnitude_zero, neg_zero]

theorem toDuration?_eq_some_iff :
    seconds.toDuration? = some duration ↔ seconds.Lasts duration := by
  cases seconds with
  | nan => exact iff_of_false (Option.some_ne_none duration).symm (not_lasts rfl)
  | infinite negative => exact iff_of_false (Option.some_ne_none duration).symm (not_lasts rfl)
  | finite negative rank hrank =>
      by_cases hn : negative = true ∧ rank ≠ 0
      · rw [toDuration?, if_pos hn]
        exact iff_of_false (Option.some_ne_none duration).symm fun h =>
          (nonneg_finite_iff hrank).mp h.nonneg hn
      · let parts :=
          scaled (significand rank * Duration.nanosPerSecond) 1 ((binade rank : Int) - 1074)
        have hvalue : (Double.finite negative rank hrank).value * Duration.nanosPerSecond =
            parts.1 / parts.2 := by
          rw [value_of_nonneg hrank hn, scaled_eq, magnitude, cast_units, zpow_sub₀ two_ne_zero,
            Nat.cast_mul, Nat.cast_one]
          ring
        have hnearest : ∀ nanos : Duration,
            NearestTo ((Double.finite negative rank hrank).value * Duration.nanosPerSecond) nanos ↔
              nanos = divNearest parts.1 parts.2 := by
          intro nanos
          rw [hvalue]
          exact nearestTo_iff (scaled_pos Nat.one_pos _)
        rw [toDuration?, if_neg hn]
        change (if divNearest parts.1 parts.2 < wordLimit * Duration.nanosPerSecond then
          some (divNearest parts.1 parts.2) else none) = some duration ↔ _
        rw [Option.ite_none_right_eq_some, Option.some.injEq]
        constructor
        · rintro ⟨hlt, rfl⟩
          exact ⟨rfl, (nonneg_finite_iff hrank).mpr hn, (hnearest _).mpr rfl, hlt⟩
        · intro h
          obtain rfl := (hnearest _).mp h.nearest
          exact ⟨h.lt, rfl⟩

-- Neither zero lasts any time.
theorem eq_zero_of_lasts {hzero : 0 < magnitudeCount}
    (h : (Double.finite negative 0 hzero).Lasts duration) : duration = 0 := by
  have hnearest := h.nearest
  rw [value_of_nonneg hzero (by simp), magnitude_zero, zero_mul] at hnearest
  exact hnearest.unique ⟨by norm_num, by norm_num⟩

-- Nor does anything below them.
theorem eq_zero_of_lasts_negative (h : (ofRank true rank).Lasts duration) : duration = 0 := by
  by_cases hrank : rank < magnitudeCount
  · rw [ofRank_of_lt true hrank] at h
    have hn := (nonneg_finite_iff hrank).mp h.nonneg
    obtain rfl : rank = 0 := by simpa using hn
    exact eq_zero_of_lasts h
  · rw [ofRank_of_ge true (Nat.not_lt.mp hrank)] at h
    exact absurd h (not_lasts rfl)

end Lasts

section Reciprocal

variable {rate : Double} {rank : Nat}

-- The reciprocal of a magnitude is the exact one, rounded.
theorem one_div_ofRank (h : rank < magnitudeCount) (hpos : rank ≠ 0) :
    ∃ quotient, 1 / ofRank false rank = ofRank false quotient ∧
      Rounds ((magnitude rank)⁻¹ * 2 ^ (1074 : Int)) quotient := by
  obtain ⟨quotient, heq, hrounds⟩ := ofRank_div_ofRank (by decide : unitRank < magnitudeCount) h hpos
  refine ⟨quotient, one_eq ▸ heq, ?_⟩
  have hvalue : (magnitude rank)⁻¹ = units unitRank / units rank := by
    rw [magnitude, inv_div, units_unitRank]
  rw [hvalue]
  exact hrounds

-- Only the reciprocals of positive numbers last any time. That of the infinite is zero, which lasts
-- none, and that of zero is infinite.
theorem exists_rank_of_lasts {duration : Duration} (h : (1 / rate).Lasts duration)
    (hpos : duration ≠ 0) :
    ∃ rank, rank ≠ 0 ∧ rank < magnitudeCount ∧ rate = ofRank false rank := by
  have hone : (1 : Double) = .finite false unitRank (by decide) :=
    one_eq.trans (ofRank_of_lt false (by decide))
  rw [hone] at h
  cases rate with
  | nan => exact absurd h (not_lasts rfl)
  | infinite negative => exact absurd (eq_zero_of_lasts h) hpos
  | finite negative rank hrank =>
      by_cases hz : rank = 0
      · subst hz
        exact absurd h (not_lasts rfl)
      · cases negative with
        | false => exact ⟨rank, hz, hrank, (ofRank_of_lt false hrank).symm⟩
        | true =>
            change (Double.div _ _).Lasts duration at h
            rw [Double.div, if_neg hz] at h
            exact absurd (eq_zero_of_lasts_negative h) hpos

theorem reciprocal_of_lasts {duration : Duration} (h : (1 / rate).Lasts duration)
    (hpos : duration ≠ 0) :
    0 < rate ∧ rate.isFinite = true ∧ ∃ quotient, 1 / rate = ofRank false quotient ∧
      Rounds (rate.value⁻¹ * 2 ^ (1074 : Int)) quotient := by
  obtain ⟨rank, hne, hrank, rfl⟩ := exists_rank_of_lasts h hpos
  refine ⟨pos_ofRank_iff.mpr hne, ?_, ?_⟩
  · rw [ofRank_of_lt false hrank]
    rfl
  · rw [value_ofRank hrank]
    exact one_div_ofRank hrank hne

end Reciprocal

end PacedFeed.Double
