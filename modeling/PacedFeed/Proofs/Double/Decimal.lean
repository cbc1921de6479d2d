import PacedFeed.Double.Shortest
import PacedFeed.Proofs.Double.Rounding

-- Decimals and the doubles that they are read as.

namespace PacedFeed

-- Powers are those of the core library, whatever else is imported.
attribute [local instance (2000)] instPowNat

namespace Decimal

def value (decimal : Decimal) : ℚ :=
  decimal.digits * 10 ^ decimal.exponent

-- A decimal that the double of some rank is written as.
def Reads (decimal : Decimal) (rank : Nat) : Prop :=
  Double.Rounds (decimal.value * 2 ^ (1074 : Int)) rank

theorem value_trim (count : Nat) (decimal : Decimal) :
    (trim count decimal).value = decimal.value := by
  induction count generalizing decimal with
  | zero => rfl
  | succ count ih =>
      rw [trim]
      split
      · rename_i h
        have hdigits : (decimal.digits : ℚ) = (decimal.digits / 10 : Nat) * 10 := by
          exact_mod_cast (Nat.div_mul_cancel (Nat.dvd_of_mod_eq_zero h.2)).symm
        rw [ih, value, value, hdigits, zpow_add₀ (by norm_num), zpow_one]
        ring
      · rfl

end Decimal

namespace Double

theorem ofRank_of_lt (negative : Bool) {rank : Nat} (h : rank < magnitudeCount) :
    ofRank negative rank = .finite negative rank h :=
  dif_pos h

theorem eq_of_ofRank_eq {negative : Bool} {rank other : Nat} (h : rank < magnitudeCount)
    (he : ofRank negative other = ofRank negative rank) : other = rank := by
  rw [ofRank_of_lt negative h, ofRank] at he
  split at he
  · injection he
  · cases he

section OfDecimal

variable {digits : Nat} {exponent : Int} {rank : Nat}

theorem two_pow_le_ten_pow : (2 : ℚ) ^ (1024 : Int) ≤ 10 ^ (309 : Int) := by
  have hpow : (2 : ℚ) ^ (93 : Nat) ≤ 10 ^ (28 : Nat) := by norm_num
  have htwo : (1024 : Int) = ((93 * 11 + 1 : Nat) : Int) := rfl
  have hten : (309 : Int) = ((28 * 11 + 1 : Nat) : Int) := rfl
  rw [htwo, hten, zpow_natCast, zpow_natCast, pow_succ (2 : ℚ) (93 * 11),
    pow_succ (10 : ℚ) (28 * 11), pow_mul, pow_mul]
  gcongr
  norm_num

-- A number that is above all doubles.
theorem two_pow_le_of_large (hdigits : digits ≠ 0) (he : 309 ≤ exponent) :
    (2 : ℚ) ^ (2098 : Int) ≤ digits * 10 ^ exponent * 2 ^ (1074 : Int) := by
  have hone : (1 : ℚ) ≤ digits := by exact_mod_cast Nat.one_le_iff_ne_zero.mpr hdigits
  have hten : (2 : ℚ) ^ (1024 : Int) ≤ 10 ^ exponent :=
    calc
      (2 : ℚ) ^ (1024 : Int) ≤ 10 ^ (309 : Int) := two_pow_le_ten_pow
      _ ≤ 10 ^ exponent := zpow_le_zpow_right₀ (by norm_num) he
  calc
    (2 : ℚ) ^ (2098 : Int) = 1 * 2 ^ (1024 : Int) * 2 ^ (1074 : Int) := by
      rw [one_mul, ← zpow_add₀ two_ne_zero]
      norm_num
    _ ≤ digits * 10 ^ exponent * 2 ^ (1074 : Int) := by gcongr

-- A number that is below half of the least one.
theorem lt_half_of_small (he : (digits.log2 : Int) + 3 * exponent < -1100) :
    digits * 10 ^ exponent * 2 ^ (1074 : Int) < (1 / 2 : ℚ) := by
  have hten : (10 : ℚ) ^ exponent ≤ 2 ^ (3 * exponent) := by
    obtain ⟨k, hk⟩ := Int.eq_ofNat_of_zero_le (show 0 ≤ -exponent by omega)
    have hexponent : exponent = -(k : Int) := by omega
    rw [hexponent, zpow_mul, zpow_neg, zpow_neg, zpow_natCast, zpow_natCast]
    exact inv_anti₀ (by positivity) (pow_le_pow_left₀ (by norm_num) (by norm_num) k)
  calc
    (digits : ℚ) * 10 ^ exponent * 2 ^ (1074 : Int)
      ≤ 2 ^ ((digits.log2 : Int) + 1) * 2 ^ (3 * exponent) * 2 ^ (1074 : Int) := by
        gcongr
        exact (lt_two_pow_log2 digits).le
    _ = 2 ^ ((digits.log2 : Int) + 1 + 3 * exponent + 1074) := by
        rw [← zpow_add₀ two_ne_zero, ← zpow_add₀ two_ne_zero]
    _ ≤ 2 ^ (-2 : Int) := zpow_le_zpow_right₀ one_le_two (by omega)
    _ < 1 / 2 := by norm_num

theorem rounds_mul_ten_pow (digits k : Nat) :
    Rounds (digits * 10 ^ (k : Int) * 2 ^ (1074 : Int)) (nearestRank (digits * 10 ^ k) 1 1074) := by
  have hvalue : ((digits * 10 ^ k : Nat) : ℚ) / (1 : Nat) = digits * 10 ^ (k : Int) := by
    rw [Nat.cast_one, div_one, Nat.cast_mul, Nat.cast_pow, zpow_natCast]
    rfl
  rw [← hvalue]
  exact rounds_nearestRank _ Nat.one_pos 1074

theorem rounds_div_ten_pow (digits k : Nat) :
    Rounds (digits * 10 ^ (-(k : Int)) * 2 ^ (1074 : Int)) (nearestRank digits (10 ^ k) 1074) := by
  have hvalue : (digits : ℚ) / (10 ^ k : Nat) = digits * 10 ^ (-(k : Int)) := by
    rw [zpow_neg, zpow_natCast, Nat.cast_pow, div_eq_mul_inv]
    rfl
  rw [← hvalue]
  exact rounds_nearestRank digits (Nat.pow_pos (by decide)) 1074

theorem exists_rounds (digits : Nat) (exponent : Int) :
    ∃ rank, Rounds (digits * 10 ^ exponent * 2 ^ (1074 : Int)) rank := by
  obtain ⟨k, rfl | rfl⟩ := exponent.eq_nat_or_neg
  · exact ⟨_, rounds_mul_ten_pow digits k⟩
  · exact ⟨_, rounds_div_ten_pow digits k⟩

-- A decimal is read as the double that its value is rounded to.
theorem ofDecimal_of_rounds (negative : Bool)
    (h : Rounds (digits * 10 ^ exponent * 2 ^ (1074 : Int)) rank) :
    ofDecimal negative digits exponent = ofRank negative rank := by
  have hzero : ofRank negative 0 = .finite negative 0 (by decide) := ofRank_of_lt negative _
  unfold ofDecimal
  split
  · rename_i hd
    rw [hd, Nat.cast_zero, zero_mul, zero_mul] at h
    rw [h.unique rounds_zero, hzero]
  · rename_i hd
    split
    · rename_i he
      have hlarge := h.magnitudeCount_le (two_pow_le_of_large hd he)
      rw [ofRank, dif_neg (Nat.not_lt.mpr hlarge)]
    · split
      · rename_i he
        rw [h.eq_zero (lt_half_of_small he), hzero]
      · split
        · rename_i he
          obtain ⟨k, rfl⟩ := Int.eq_ofNat_of_zero_le he
          rw [h.unique (rounds_mul_ten_pow digits k), Int.toNat_natCast, round, zero_add]
        · obtain ⟨k, hk⟩ := Int.eq_ofNat_of_zero_le (show 0 ≤ -exponent by omega)
          have hexponent : exponent = -(k : Int) := by omega
          subst hexponent
          rw [h.unique (rounds_div_ten_pow digits k), neg_neg, Int.toNat_natCast, round, zero_add]

-- Numerals of one value are read alike.
theorem ofDecimal_eq_finite (negative : Bool) {decimal : Decimal} (h : rank < magnitudeCount)
    (hr : decimal.Reads rank) (hv : (digits : ℚ) * 10 ^ exponent = decimal.value) :
    ofDecimal negative digits exponent = .finite negative rank h := by
  rw [Decimal.Reads, ← hv] at hr
  rw [ofDecimal_of_rounds negative hr, ofRank_of_lt negative h]

theorem reads_of_ofDecimal {decimal : Decimal} (h : rank < magnitudeCount)
    (he : ofDecimal false decimal.digits decimal.exponent = ofRank false rank) :
    decimal.Reads rank := by
  obtain ⟨other, hother⟩ := exists_rounds decimal.digits decimal.exponent
  rw [ofDecimal_of_rounds false hother] at he
  rw [← eq_of_ofRank_eq h he]
  exact hother

end OfDecimal

section Shortest

variable {rank : Nat} {halfway : Halfway}

theorem reads_onGrid (h : rank < magnitudeCount) {exponent : Int} {decimal : Decimal}
    (hs : onGrid? halfway rank exponent = some decimal) : decimal.Reads rank := by
  refine reads_of_ofDecimal h ?_
  unfold onGrid? at hs
  dsimp only at hs
  split at hs
  · cases hs
  · rename_i hbelow habove
    cases hs
    exact of_decide_eq_true hbelow
  · rename_i hbelow habove
    cases hs
    exact of_decide_eq_true habove
  · rename_i hbelow habove
    have hcases := ite_eq_or_eq _ _ _ |>.imp (Option.some.inj hs).symm.trans
      (Option.some.inj hs).symm.trans
    rcases hcases with rfl | rfl
    · exact of_decide_eq_true habove
    · exact of_decide_eq_true hbelow

-- All digits of a magnitude have the value of the magnitude itself.
theorem value_exactDecimal (rank : Nat) :
    (exactDecimal rank).value * 2 ^ (1074 : Int) = units rank := by
  let above := binade rank - 1074
  let below := 1074 - binade rank
  have hfive : ((5 : ℚ) ^ below) * 10 ^ (-(below : Int)) = 2 ^ (-(below : Int)) := by
    rw [zpow_neg, zpow_neg, zpow_natCast, zpow_natCast, ← div_eq_mul_inv, ← div_pow, ← inv_pow]
    norm_num
  have hbinade : (2 : ℚ) ^ above * 2 ^ (-(below : Int)) * 2 ^ (1074 : Int) = 2 ^ binade rank := by
    rw [← zpow_natCast, ← zpow_natCast, ← zpow_add₀ two_ne_zero, ← zpow_add₀ two_ne_zero]
    congr 1
    omega
  have hdigits : ((exactDecimal rank).digits : ℚ) = significand rank * 2 ^ above * 5 ^ below := by
    have hexact : (exactDecimal rank).digits = significand rank * 2 ^ above * 5 ^ below := rfl
    rw [hexact]
    push_cast
    rfl
  have hunits : (units rank : ℚ) = significand rank * 2 ^ binade rank := by
    simp [units]
  have hexponent : (exactDecimal rank).exponent = -(below : Int) := rfl
  rw [Decimal.value, hdigits, hexponent, hunits, ← hbinade, mul_assoc _ (5 ^ below : ℚ), hfive]
  ring

theorem reads_exactDecimal (rank : Nat) : (exactDecimal rank).Reads rank := by
  rw [Decimal.Reads, value_exactDecimal]
  exact rounds_units rank

-- However a magnitude is written, it reads back.
theorem reads_shortest (h : rank < magnitudeCount) : (shortest halfway rank).Reads rank := by
  unfold shortest
  split
  · rename_i hzero
    subst hzero
    rw [Decimal.Reads, Decimal.value, Nat.cast_zero, zero_mul, zero_mul]
    exact rounds_zero
  · dsimp only
    split
    · rename_i decimal hfound
      obtain ⟨count, -, hgrid⟩ := List.exists_of_findSome?_eq_some hfound
      rw [Decimal.Reads, Decimal.value_trim]
      exact reads_onGrid h hgrid
    · exact reads_exactDecimal rank

end Shortest

end Double

end PacedFeed
