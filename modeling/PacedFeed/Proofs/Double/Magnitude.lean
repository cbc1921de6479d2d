import PacedFeed.Proofs.Double.Order

-- The doubles without a sign, in order: what lies between them, and how sums, quotients and
-- products of larger ones are larger.

namespace PacedFeed.Double

-- Powers are those of the core library, whatever else is imported.
attribute [local instance (2000)] instPowNat

section Ranks

variable {rank rank' : Nat}

theorem binade_mono (h : rank ≤ rank') : binade rank ≤ binade rank' :=
  Nat.sub_le_sub_right (Nat.div_le_div_right h) 1

-- From one magnitude to the next it is a step of the binade, also into the next binade.
theorem units_succ (rank : Nat) : units (rank + 1) = units rank + 2 ^ binade rank := by
  obtain ⟨hb, hs⟩ | ⟨hb, hs, hs'⟩ :
      (binade (rank + 1) = binade rank ∧ significand (rank + 1) = significand rank + 1) ∨
        (binade (rank + 1) = binade rank + 1 ∧ significand (rank + 1) = 2 ^ (52 : Nat) ∧
          significand rank + 1 = 2 ^ (53 : Nat)) := by
    simp only [significand, binade, Nat.reducePow]
    omega
  · rw [units, units, hb, hs, Nat.succ_mul]
  · have hcarry : units rank + 2 ^ binade rank = 2 ^ (53 : Nat) * 2 ^ binade rank := by
      rw [units, ← hs', Nat.succ_mul]
    rw [hcarry, units, hb, hs, ← Nat.pow_add, ← Nat.pow_add]
    congr 1
    omega

theorem units_lt (h : rank < rank') : units rank < units rank' := by
  calc
    units rank < units rank + 2 ^ binade rank := Nat.lt_add_of_pos_right (Nat.two_pow_pos _)
    _ = units (rank + 1) := (units_succ rank).symm
    _ ≤ units rank' := units_mono (Nat.succ_le_of_lt h)

-- Fewer than 2^53 digits in any place are a magnitude.
theorem exists_units_eq {digits : Nat} (h : digits < 2 ^ (53 : Nat)) (shift : Nat) :
    ∃ rank, units rank = digits * 2 ^ shift := by
  induction shift generalizing digits with
  | zero =>
      refine ⟨digits, ?_⟩
      have hb : binade digits = 0 := by
        simp only [binade, Nat.reducePow] at h ⊢
        omega
      have hs : significand digits = digits := by
        rw [significand, hb, Nat.zero_mul, Nat.sub_zero]
      rw [units, hb, hs]
  | succ shift ih =>
      by_cases hlow : digits < 2 ^ (52 : Nat)
      · have hdouble : 2 * digits < 2 ^ (53 : Nat) := by omega
        obtain ⟨rank, hr⟩ := ih hdouble
        refine ⟨rank, ?_⟩
        rw [hr, Nat.pow_succ]
        ring
      · refine ⟨(shift + 1) * 2 ^ (52 : Nat) + digits, ?_⟩
        have hb : binade ((shift + 1) * 2 ^ (52 : Nat) + digits) = shift + 1 := by
          simp only [binade, Nat.reducePow] at h hlow ⊢
          omega
        have hs : significand ((shift + 1) * 2 ^ (52 : Nat) + digits) = digits := by
          rw [significand, hb, Nat.add_sub_cancel_left]
        rw [units, hb, hs]

-- What is less than half a step above a magnitude is rounded down to it.
theorem rounds_units_add {extra places : Nat} (he : extra < 2 ^ places)
    (hp : places < binade rank) : Rounds (units rank + extra : Nat) rank := by
  have h : 2 * extra < 2 ^ binade rank :=
    calc
      2 * extra < 2 * 2 ^ places := Nat.mul_lt_mul_of_pos_left he Nat.two_pos
      _ = 2 ^ (places + 1) := Nat.pow_succ'.symm
      _ ≤ 2 ^ binade rank := Nat.pow_le_pow_right Nat.two_pos hp
  have hpos := Nat.two_pow_pos (binade rank)
  have hlt := significand_lt rank
  have hnum : units rank + extra = extra + 2 ^ binade rank * significand rank := by
    rw [units]
    ring
  refine ⟨binade rank, units rank + extra, 2 ^ binade rank, hpos, ?_, ?_, ?_, ?_⟩
  · push_cast
    rw [zpow_natCast]
    field_simp
  · rw [hnum]
    nlinarith
  · refine (le_significand rank).imp_right fun hle => ?_
    rw [hnum]
    nlinarith
  · have hmod : (units rank + extra) % 2 ^ binade rank = extra := by
      rw [hnum, Nat.add_mul_mod_self_left, Nat.mod_eq_of_lt (by omega)]
    have hdiv : (units rank + extra) / 2 ^ binade rank = significand rank := by
      rw [hnum, Nat.add_mul_div_left _ _ hpos, Nat.div_eq_of_lt (by omega), Nat.zero_add]
    rw [divNearest, hmod, if_pos (.inl h), hdiv]
    exact (binade_add_significand rank).symm

end Ranks

section Arithmetic

variable {x y x' y' : Double} {rank rank' : Nat}

-- A sum is the exact one, rounded. Beyond the finite ranks that is infinite, as it should be.
theorem ofRank_add_ofRank (rank rank' : Nat) :
    ∃ sum, ofRank false rank + ofRank false rank' = ofRank false sum ∧
      Rounds (units rank + units rank') sum := by
  by_cases hfinite : rank < magnitudeCount ∧ rank' < magnitudeCount
  · obtain ⟨h, h'⟩ := hfinite
    let base := min (binade rank) (binade rank')
    let size (rank : Nat) := significand rank * 2 ^ (binade rank - base)
    have hunits (rank : Nat) (hb : base ≤ binade rank) : units rank = size rank * 2 ^ base := by
      rw [units, Nat.mul_assoc, ← Nat.pow_add, Nat.sub_add_cancel hb]
    have hvalue : (units rank + units rank' : ℚ) =
        (size rank + size rank' : Nat) / (1 : Nat) * 2 ^ (base : Int) := by
      rw [hunits rank (Nat.min_le_left _ _), hunits rank' (Nat.min_le_right _ _), zpow_natCast]
      push_cast
      ring
    refine ⟨nearestRank (size rank + size rank') 1 base, ?_, ?_⟩
    · rw [ofRank_of_lt false h, ofRank_of_lt false h']
      change (if (size rank : Int) + size rank' = 0 then Double.finite (false && false) 0 _
        else ofRank (decide ((size rank : Int) + size rank' < 0))
          (nearestRank ((size rank : Int) + size rank').natAbs 1 base)) = _
      split
      · rename_i hzero
        have hsum : size rank + size rank' = 0 := by exact_mod_cast hzero
        rw [hsum]
        rfl
      · have hneg : ¬((size rank : Int) + size rank' < 0) := by omega
        rw [decide_eq_false hneg, ← Int.natCast_add, Int.natAbs_natCast]
    · rw [hvalue]
      exact rounds_nearestRank _ Nat.one_pos _
  · have hrounds := rounds_nearestRank (units rank + units rank') Nat.one_pos 0
    have hvalue : ((units rank + units rank' : Nat) : ℚ) / (1 : Nat) * 2 ^ (0 : Int) =
        units rank + units rank' := by
      push_cast
      ring
    rw [hvalue] at hrounds
    refine ⟨_, ?_, hrounds⟩
    have hle : rank ≤ nearestRank (units rank + units rank') 1 0 :=
      (rounds_units rank).mono hrounds (le_add_of_nonneg_right (Nat.cast_nonneg _))
    have hle' : rank' ≤ nearestRank (units rank + units rank') 1 0 :=
      (rounds_units rank').mono hrounds (le_add_of_nonneg_left (Nat.cast_nonneg _))
    rw [ofRank_of_ge false (show magnitudeCount ≤ nearestRank _ 1 0 by omega)]
    by_cases h : rank < magnitudeCount
    · rw [ofRank_of_lt false h, ofRank_of_ge false (show magnitudeCount ≤ rank' by omega)]
      rfl
    · rw [ofRank_of_ge false (Nat.not_lt.mp h)]
      by_cases h' : rank' < magnitudeCount
      · rw [ofRank_of_lt false h']
        rfl
      · rw [ofRank_of_ge false (Nat.not_lt.mp h')]
        rfl

-- Two numbers without a sign, the first of them no larger.
def AtMost (x y : Double) : Prop :=
  ∃ low high, low ≤ high ∧ x = ofRank false low ∧ y = ofRank false high

theorem AtMost.le (h : x.AtMost y) : x ≤ y := by
  obtain ⟨low, high, hle, rfl, rfl⟩ := h
  exact ofRank_mono hle

-- Nothing is above the infinite.
theorem AtMost.of_infinite {rank : Nat} : (ofRank false rank).AtMost (.infinite false) :=
  ⟨min rank magnitudeCount, magnitudeCount, Nat.min_le_right _ _, (ofRank_min rank).symm,
    (ofRank_of_ge false (Nat.le_refl _)).symm⟩

theorem AtMost.trans {z : Double} (h : x.AtMost y) (h' : y.AtMost z) : x.AtMost z := by
  obtain ⟨low, middle, hle, rfl, rfl⟩ := h
  obtain ⟨middle', high, hle', hsame, rfl⟩ := h'
  by_cases hfinite : middle' < magnitudeCount
  · have hranks : middle = middle' := eq_of_ofRank_eq hfinite hsame
    exact ⟨low, high, by omega, rfl, rfl⟩
  · rw [ofRank_of_ge false (show magnitudeCount ≤ high by omega)]
    exact .of_infinite

theorem atMost_ofNat {n m : Nat} (h : n ≤ m) : (ofNat n).AtMost (ofNat m) :=
  ⟨_, _, nearestRank_mono h, ofNat_eq n, ofNat_eq m⟩

theorem AtMost.add (h : x.AtMost y) (h' : x'.AtMost y') : (x + x').AtMost (y + y') := by
  obtain ⟨low, high, hle, rfl, rfl⟩ := h
  obtain ⟨low', high', hle', rfl, rfl⟩ := h'
  obtain ⟨sum, hsum, hrounds⟩ := ofRank_add_ofRank low low'
  obtain ⟨sum', hsum', hrounds'⟩ := ofRank_add_ofRank high high'
  refine ⟨sum, sum', hrounds.mono hrounds' ?_, hsum, hsum'⟩
  exact_mod_cast Nat.add_le_add (units_mono hle) (units_mono hle')

-- What is added makes a number no smaller.
theorem AtMost.add_right (h : x.AtMost y) (rank : Nat) : x.AtMost (y + ofRank false rank) := by
  obtain ⟨low, high, hle, rfl, rfl⟩ := h
  obtain ⟨sum, hsum, hrounds⟩ := ofRank_add_ofRank high rank
  have hsum_le : high ≤ sum :=
    (rounds_units high).mono hrounds (le_add_of_nonneg_right (Nat.cast_nonneg _))
  exact ⟨low, sum, hle.trans hsum_le, rfl, hsum⟩

theorem AtMost.add_left (h : x.AtMost y) (rank : Nat) : x.AtMost (ofRank false rank + y) := by
  obtain ⟨low, high, hle, rfl, rfl⟩ := h
  obtain ⟨sum, hsum, hrounds⟩ := ofRank_add_ofRank rank high
  have hsum_le : high ≤ sum :=
    (rounds_units high).mono hrounds (le_add_of_nonneg_left (Nat.cast_nonneg _))
  exact ⟨low, sum, hle.trans hsum_le, rfl, hsum⟩

theorem infinite_div_ofRank (h : rank < magnitudeCount) :
    Double.infinite false / ofRank false rank = .infinite false := by
  rw [ofRank_of_lt false h]
  rfl

theorem zero_div_ofRank (h : rank < magnitudeCount) (hpos : rank ≠ 0) :
    0 / ofRank false rank = 0 := by
  have hzero : 0 < magnitudeCount := by decide
  rw [zero_eq, ofRank_of_lt false h, ofRank_of_lt false hzero]
  change Double.div _ _ = _
  rw [Double.div, if_neg hpos]
  rfl

theorem AtMost.div_right (h : x.AtMost y) (hr : rank < magnitudeCount) (hpos : rank ≠ 0) :
    (x / ofRank false rank).AtMost (y / ofRank false rank) := by
  obtain ⟨low, high, hle, rfl, rfl⟩ := h
  by_cases hhigh : high < magnitudeCount
  · obtain ⟨quotient, heq, hrounds⟩ := ofRank_div_ofRank (hle.trans_lt hhigh) hr hpos
    obtain ⟨quotient', heq', hrounds'⟩ := ofRank_div_ofRank hhigh hr hpos
    refine ⟨quotient, quotient', hrounds.mono hrounds' ?_, heq, heq'⟩
    have hunits : (units low : ℚ) ≤ units high := by exact_mod_cast units_mono hle
    gcongr
  · rw [ofRank_of_ge false (Nat.not_lt.mp hhigh), infinite_div_ofRank hr]
    by_cases hlow : low < magnitudeCount
    · obtain ⟨quotient, heq, -⟩ := ofRank_div_ofRank hlow hr hpos
      rw [heq]
      exact .of_infinite
    · rw [ofRank_of_ge false (Nat.not_lt.mp hlow), infinite_div_ofRank hr,
        ← ofRank_of_ge false (Nat.le_refl magnitudeCount)]
      exact .of_infinite

theorem infinite_mul_ofRank (h : rank < magnitudeCount) (hpos : rank ≠ 0) :
    Double.infinite false * ofRank false rank = .infinite false := by
  rw [ofRank_of_lt false h]
  exact if_neg hpos

theorem AtMost.mul_right (h : x.AtMost y) (hr : rank < magnitudeCount) (hpos : rank ≠ 0) :
    (x * ofRank false rank).AtMost (y * ofRank false rank) := by
  obtain ⟨low, high, hle, rfl, rfl⟩ := h
  by_cases hhigh : high < magnitudeCount
  · obtain ⟨product, heq, hrounds⟩ := ofRank_mul_ofRank (hle.trans_lt hhigh) hr
    obtain ⟨product', heq', hrounds'⟩ := ofRank_mul_ofRank hhigh hr
    refine ⟨product, product', hrounds.mono hrounds' ?_, heq, heq'⟩
    have hunits : (units low : ℚ) ≤ units high := by exact_mod_cast units_mono hle
    gcongr
  · rw [ofRank_of_ge false (Nat.not_lt.mp hhigh), infinite_mul_ofRank hr hpos]
    by_cases hlow : low < magnitudeCount
    · obtain ⟨product, heq, -⟩ := ofRank_mul_ofRank hlow hr
      rw [heq]
      exact .of_infinite
    · rw [ofRank_of_ge false (Nat.not_lt.mp hlow), infinite_mul_ofRank hr hpos,
        ← ofRank_of_ge false (Nat.le_refl magnitudeCount)]
      exact .of_infinite

-- A quotient by a larger number is smaller, down to zero for an infinite one.
theorem AtMost.div_left (h : x.AtMost y) (hpos : 0 < x) (hr : rank < magnitudeCount) :
    (ofRank false rank / y).AtMost (ofRank false rank / x) := by
  obtain ⟨low, high, hle, rfl, rfl⟩ := h
  have hlow : low ≠ 0 := pos_ofRank_iff.mp hpos
  have hzero : ofRank false rank / .infinite false = ofRank false 0 := by
    rw [ofRank_of_lt false hr]
    rfl
  by_cases hhigh : high < magnitudeCount
  · obtain ⟨quotient, heq, hrounds⟩ := ofRank_div_ofRank hr hhigh (by omega)
    obtain ⟨quotient', heq', hrounds'⟩ := ofRank_div_ofRank hr (hle.trans_lt hhigh) hlow
    refine ⟨quotient, quotient', hrounds.mono hrounds' ?_, heq, heq'⟩
    have hunits : (units low : ℚ) ≤ units high := by exact_mod_cast units_mono hle
    have hunits' : (0 : ℚ) < units low := by
      exact_mod_cast Nat.pos_of_ne_zero fun h => hlow (units_eq_zero_iff.mp h)
    refine mul_le_mul_of_nonneg_right ?_ (by positivity)
    exact div_le_div_of_nonneg_left (Nat.cast_nonneg _) hunits' hunits
  · rw [ofRank_of_ge false (Nat.not_lt.mp hhigh), hzero]
    by_cases hlow' : low < magnitudeCount
    · obtain ⟨quotient, heq, -⟩ := ofRank_div_ofRank hr hlow' hlow
      exact ⟨0, quotient, Nat.zero_le _, rfl, heq⟩
    · rw [ofRank_of_ge false (Nat.not_lt.mp hlow'), hzero]
      exact ⟨0, 0, Nat.le_refl _, rfl, rfl⟩

end Arithmetic

end PacedFeed.Double
