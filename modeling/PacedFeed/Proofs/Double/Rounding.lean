import Mathlib.Algebra.Order.Field.Power
import Mathlib.Data.Rat.Lemmas
import Mathlib.Tactic.FieldSimp
import Mathlib.Tactic.Linarith
import Mathlib.Tactic.Positivity
import Mathlib.Tactic.Ring
import PacedFeed.Double

-- What rounding does, told by the number that is rounded and not by how it is written.

namespace PacedFeed.Double

-- Powers are those of the core library, whatever else is imported.
attribute [local instance (2000)] instPowNat

-- The rank that a number of units is rounded to: the number lies in some binade, and the rank
-- counts the steps of the binade that are nearest to it.
def Rounds (value : ℚ) (rank : Nat) : Prop :=
  ∃ binade num den : Nat, 0 < den ∧ value = num / den * 2 ^ (binade : Int) ∧
    num < den * 2 ^ (53 : Nat) ∧ (binade = 0 ∨ den * 2 ^ (52 : Nat) ≤ num) ∧
    rank = binade * 2 ^ (52 : Nat) + divNearest num den

section Quotients

variable {num den factor : Nat}

theorem divNearest_mul_right (h : 0 < factor) :
    divNearest (num * factor) (den * factor) = divNearest num den := by
  have hlt : 2 * (num * factor % (den * factor)) < den * factor ↔ 2 * (num % den) < den := by
    rw [Nat.mul_mod_mul_right, ← Nat.mul_assoc]
    exact Nat.mul_lt_mul_right h
  have heq : 2 * (num * factor % (den * factor)) = den * factor ↔ 2 * (num % den) = den := by
    rw [Nat.mul_mod_mul_right, ← Nat.mul_assoc]
    exact Nat.mul_left_inj h.ne'
  simp only [divNearest, hlt, heq, Nat.mul_div_mul_right _ _ h]

theorem divNearest_one (n : Nat) : divNearest n 1 = n := by
  simp [divNearest, Nat.mod_one]

-- Quotients of one value are rounded alike.
theorem divNearest_congr {num' den' : Nat} (h : 0 < den) (h' : 0 < den')
    (hv : (num : ℚ) / den = num' / den') : divNearest num den = divNearest num' den' := by
  have hcross : num * den' = num' * den := by
    have hden : (den : ℚ) ≠ 0 := by positivity
    have hden' : (den' : ℚ) ≠ 0 := by positivity
    rw [div_eq_div_iff hden hden'] at hv
    exact_mod_cast hv
  calc
    divNearest num den = divNearest (num * den') (den * den') := (divNearest_mul_right h').symm
    _ = divNearest (num' * den) (den' * den) := by rw [hcross, Nat.mul_comm den den']
    _ = divNearest num' den' := divNearest_mul_right h

end Quotients

theorem scaled_pos {num den : Nat} (h : 0 < den) (shift : Int) :
    0 < (scaled num den shift).2 := by
  unfold scaled
  split
  · exact h
  · exact Nat.mul_pos h (Nat.two_pow_pos _)

theorem scaled_eq (num den : Nat) (shift : Int) :
    ((scaled num den shift).1 : ℚ) / (scaled num den shift).2 = num / den * 2 ^ shift := by
  unfold scaled
  split
  · rename_i h
    lift shift to Nat using h
    simp only [Int.toNat_natCast, zpow_natCast]
    push_cast
    ring
  · rename_i h
    obtain ⟨k, hk⟩ := Int.eq_ofNat_of_zero_le (show 0 ≤ -shift by omega)
    have hshift : shift = -(k : Int) := by omega
    subst hshift
    simp only [neg_neg, Int.toNat_natCast, zpow_neg, zpow_natCast]
    push_cast
    rw [div_mul_eq_div_div, div_eq_mul_inv (num / den : ℚ)]

section Rounds

variable {value : ℚ} {rank : Nat}

theorem lt_of_rounds {binade num den : Nat} (hden : 0 < den)
    (hv : value = num / den * 2 ^ (binade : Int)) (hlt : num < den * 2 ^ (53 : Nat)) :
    value < 2 ^ ((binade : Int) + 53) := by
  have hden' : (0 : ℚ) < den := by exact_mod_cast hden
  have hlt' : (num : ℚ) < den * 2 ^ (53 : Nat) := by exact_mod_cast hlt
  rw [hv, zpow_add₀ two_ne_zero, mul_comm]
  refine mul_lt_mul_of_pos_left ?_ (by positivity)
  rw [div_lt_iff₀ hden', mul_comm]
  exact hlt'

theorem le_of_rounds {binade num den : Nat} (hden : 0 < den)
    (hv : value = num / den * 2 ^ (binade : Int)) (hle : den * 2 ^ (52 : Nat) ≤ num) :
    2 ^ ((binade : Int) + 52) ≤ value := by
  have hden' : (0 : ℚ) < den := by exact_mod_cast hden
  have hle' : (den : ℚ) * 2 ^ (52 : Nat) ≤ num := by exact_mod_cast hle
  rw [hv, zpow_add₀ two_ne_zero, mul_comm]
  refine mul_le_mul_of_nonneg_right ?_ (by positivity)
  rw [le_div_iff₀ hden', mul_comm]
  exact hle'

-- No number lies in two binades, so it rounds to one rank only.
theorem Rounds.unique (h : Rounds value rank) {other : Nat} (h' : Rounds value other) :
    rank = other := by
  obtain ⟨binade, num, den, hden, hv, hlt, hle, rfl⟩ := h
  obtain ⟨binade', num', den', hden', hv', hlt', hle', rfl⟩ := h'
  have hbound : ∀ {b b' n d : Nat}, value < 2 ^ ((b : Int) + 53) → 0 < d →
      value = n / d * 2 ^ (b' : Int) → (b' = 0 ∨ d * 2 ^ (52 : Nat) ≤ n) → b' ≤ b := by
    intro b b' n d hlt hd hv hle
    rcases hle with rfl | hle
    · exact Nat.zero_le b
    · have hpow := (le_of_rounds hd hv hle).trans_lt hlt
      rw [zpow_lt_zpow_iff_right₀ one_lt_two] at hpow
      omega
  have hbinade : binade = binade' :=
    le_antisymm (hbound (lt_of_rounds hden' hv' hlt') hden hv hle)
      (hbound (lt_of_rounds hden hv hlt) hden' hv' hle')
  subst hbinade
  have hratio : (num : ℚ) / den = num' / den' :=
    mul_right_cancel₀ (zpow_ne_zero _ two_ne_zero) (hv.symm.trans hv')
  rw [divNearest_congr hden hden' hratio]

theorem rounds_zero : Rounds 0 0 :=
  ⟨0, 0, 1, Nat.one_pos, by simp, by decide, .inl rfl, by simp [divNearest]⟩

theorem significand_lt (rank : Nat) : significand rank < 2 ^ (53 : Nat) := by
  simp only [significand, binade, Nat.reducePow]
  omega

theorem le_significand (rank : Nat) : binade rank = 0 ∨ 2 ^ (52 : Nat) ≤ significand rank := by
  simp only [significand, binade, Nat.reducePow]
  omega

theorem binade_add_significand (rank : Nat) :
    binade rank * 2 ^ (52 : Nat) + significand rank = rank := by
  simp only [significand, binade, Nat.reducePow]
  omega

-- The number of units of a rank rounds to the rank.
theorem rounds_units (rank : Nat) : Rounds (units rank) rank := by
  refine ⟨binade rank, significand rank, 1, Nat.one_pos, ?_, ?_, ?_, ?_⟩
  · simp [units]
  · rw [Nat.one_mul]
    exact significand_lt rank
  · rw [Nat.one_mul]
    exact le_significand rank
  · rw [divNearest_one, binade_add_significand]

-- What is less than half a unit is rounded to nothing.
theorem Rounds.eq_zero (h : Rounds value rank) (hv : value < 1 / 2) : rank = 0 := by
  obtain ⟨binade, num, den, hden, hvalue, -, hle, rfl⟩ := h
  have hbinade : binade = 0 := by
    refine hle.resolve_right fun hle => ?_
    have hpow := (le_of_rounds hden hvalue hle).trans_lt hv
    have hone : (1 : ℚ) ≤ 2 ^ ((binade : Int) + 52) := one_le_zpow₀ one_le_two (by omega)
    linarith
  subst hbinade
  have hden' : (0 : ℚ) < den := by exact_mod_cast hden
  have hsmall : 2 * num < den := by
    rw [hvalue, Nat.cast_zero, zpow_zero, mul_one, div_lt_div_iff₀ hden' two_pos] at hv
    have hcast : ((num * 2 : Nat) : ℚ) < (den : ℚ) := by
      push_cast
      linarith
    have hlt : num * 2 < den := by exact_mod_cast hcast
    omega
  have hmod : num % den = num := Nat.mod_eq_of_lt (by omega)
  have hdiv : num / den = 0 := Nat.div_eq_of_lt (by omega)
  rw [divNearest, hmod, if_pos (.inl hsmall), hdiv]

theorem le_divNearest {num den : Nat} (hden : 0 < den) {n : Nat} (h : den * n ≤ num) :
    n ≤ divNearest num den := by
  have hle : n ≤ num / den := (Nat.le_div_iff_mul_le hden).mpr (by rwa [Nat.mul_comm])
  unfold divNearest
  split <;> omega

-- What is beyond all finite magnitudes is rounded to none of them.
theorem Rounds.magnitudeCount_le (h : Rounds value rank) (hv : 2 ^ (2098 : Int) ≤ value) :
    magnitudeCount ≤ rank := by
  obtain ⟨binade, num, den, hden, hvalue, hlt, hle, rfl⟩ := h
  have hpow := hv.trans_lt (lt_of_rounds hden hvalue hlt)
  rw [zpow_lt_zpow_iff_right₀ one_lt_two] at hpow
  have hstep := le_divNearest hden (hle.resolve_left (by omega))
  simp only [magnitudeCount, Nat.reducePow] at hstep ⊢
  omega

end Rounds

section Nearest

variable {num den : Nat}

theorem two_pow_log2_le (h : num ≠ 0) : (2 : ℚ) ^ (num.log2 : Int) ≤ num := by
  rw [zpow_natCast]
  exact_mod_cast Nat.log2_self_le h

theorem lt_two_pow_log2 (num : Nat) : (num : ℚ) < 2 ^ ((num.log2 : Int) + 1) := by
  have hlt : num < 2 ^ (num.log2 + 1) := Nat.lt_log2_self
  rw [← Nat.cast_one, ← Nat.cast_add, zpow_natCast]
  exact_mod_cast hlt

-- The binary logarithm of a quotient, up to one.
theorem zpow_le_div (hnum : num ≠ 0) (hden : den ≠ 0) :
    (2 : ℚ) ^ ((num.log2 : Int) - den.log2 - 1) ≤ num / den := by
  have hden' : (0 : ℚ) < den := by exact_mod_cast Nat.pos_of_ne_zero hden
  rw [le_div_iff₀ hden']
  calc
    (2 : ℚ) ^ ((num.log2 : Int) - den.log2 - 1) * den
      ≤ 2 ^ ((num.log2 : Int) - den.log2 - 1) * 2 ^ ((den.log2 : Int) + 1) :=
        mul_le_mul_of_nonneg_left (lt_two_pow_log2 den).le (by positivity)
    _ = 2 ^ (num.log2 : Int) := by
        rw [← zpow_add₀ two_ne_zero]
        congr 1
        omega
    _ ≤ num := two_pow_log2_le hnum

theorem div_lt_zpow (hden : den ≠ 0) :
    (num : ℚ) / den < 2 ^ ((num.log2 : Int) - den.log2 + 1) := by
  have hden' : (0 : ℚ) < den := by exact_mod_cast Nat.pos_of_ne_zero hden
  rw [div_lt_iff₀ hden']
  calc
    (num : ℚ) < 2 ^ ((num.log2 : Int) + 1) := lt_two_pow_log2 num
    _ = 2 ^ ((num.log2 : Int) - den.log2 + 1) * 2 ^ (den.log2 : Int) := by
        rw [← zpow_add₀ two_ne_zero]
        congr 1
        omega
    _ ≤ 2 ^ ((num.log2 : Int) - den.log2 + 1) * den :=
        mul_le_mul_of_nonneg_left (two_pow_log2_le hden) (by positivity)

theorem scaled_lt_iff (hden : 0 < den) (shift : Int) (k : Nat) :
    (scaled num den shift).1 < (scaled num den shift).2 * 2 ^ k ↔
      (num : ℚ) / den * 2 ^ shift < 2 ^ (k : Int) := by
  have hpos : (0 : ℚ) < (scaled num den shift).2 := by exact_mod_cast scaled_pos hden shift
  rw [← scaled_eq, div_lt_iff₀ hpos, mul_comm, zpow_natCast]
  exact_mod_cast Iff.rfl

-- The binade is the least one whose steps are wide enough.
theorem roundingBinade_spec (hnum : num ≠ 0) (hden : 0 < den) (shift : Int) :
    let step := roundingBinade num den shift
    let value : ℚ := num / den * 2 ^ shift
    value < 2 ^ ((step : Int) + 53) ∧ (step = 0 ∨ 2 ^ ((step : Int) + 52) ≤ value) := by
  intro step value
  let top : Int := (num.log2 : Int) + shift - den.log2
  let low := (top - 53).toNat
  have hlower : (2 : ℚ) ^ (top - 1) ≤ value := by
    have htop : top - 1 = ((num.log2 : Int) - den.log2 - 1) + shift := by omega
    rw [htop, zpow_add₀ two_ne_zero]
    exact mul_le_mul_of_nonneg_right (zpow_le_div hnum hden.ne') (by positivity)
  have hupper : value < 2 ^ (top + 1) := by
    have htop : top + 1 = ((num.log2 : Int) - den.log2 + 1) + shift := by omega
    rw [htop, zpow_add₀ two_ne_zero]
    exact mul_lt_mul_of_pos_right (div_lt_zpow hden.ne') (by positivity)
  have hmono : ∀ {a b : Int}, a ≤ b → (2 : ℚ) ^ a ≤ 2 ^ b := fun h =>
    zpow_le_zpow_right₀ one_le_two h
  have hfits : (scaled num den (shift - low)).1 <
      (scaled num den (shift - low)).2 * 2 ^ (53 : Nat) ↔ value < 2 ^ ((low : Int) + 53) := by
    have hvalue : (num : ℚ) / den * 2 ^ (shift - low) = value / 2 ^ (low : Int) := by
      rw [zpow_sub₀ two_ne_zero, mul_div_assoc]
    rw [scaled_lt_iff hden, hvalue, div_lt_iff₀ (by positivity), ← zpow_add₀ two_ne_zero, add_comm]
    rfl
  have hstep : step = if (scaled num den (shift - low)).1 <
      (scaled num den (shift - low)).2 * 2 ^ (53 : Nat) then low else low + 1 := rfl
  rw [hstep, if_congr hfits rfl rfl]
  split
  · rename_i hlt
    refine ⟨hlt, ?_⟩
    by_cases hlow : low = 0
    · exact .inl hlow
    · exact .inr ((hmono (by omega)).trans hlower)
  · rename_i hge
    push Not at hge
    push_cast
    refine ⟨hupper.trans_le (hmono (by omega)), .inr ((hmono (by omega)).trans hge)⟩

theorem rounds_nearestRank (num : Nat) {den : Nat} (hden : 0 < den) (shift : Int) :
    Rounds (num / den * 2 ^ shift) (nearestRank num den shift) := by
  by_cases hnum : num = 0
  · subst hnum
    rw [nearestRank, if_pos rfl, Nat.cast_zero, zero_div, zero_mul]
    exact rounds_zero
  · let step := roundingBinade num den shift
    obtain ⟨hlt, hle⟩ := roundingBinade_spec hnum hden shift
    have hvalue : (num : ℚ) / den * 2 ^ shift =
        num / den * 2 ^ (shift - step) * 2 ^ (step : Int) := by
      rw [mul_assoc, ← zpow_add₀ two_ne_zero, sub_add_cancel]
    have hfits : ∀ k : Nat, (scaled num den (shift - step)).1 <
        (scaled num den (shift - step)).2 * 2 ^ k ↔
        (num : ℚ) / den * 2 ^ shift < 2 ^ ((step : Int) + k) := by
      intro k
      have hpos : (0 : ℚ) < 2 ^ (step : Int) := by positivity
      rw [scaled_lt_iff hden, hvalue, add_comm, zpow_add₀ two_ne_zero, mul_lt_mul_iff_left₀ hpos]
    rw [nearestRank, if_neg hnum]
    refine ⟨step, _, _, scaled_pos hden (shift - step), ?_, (hfits 53).mpr hlt, ?_, rfl⟩
    · rw [scaled_eq, hvalue]
    · refine hle.imp_right fun hle => ?_
      exact Nat.le_of_not_lt fun hlt => absurd ((hfits 52).mp hlt) (not_lt.mpr hle)

end Nearest

end PacedFeed.Double
