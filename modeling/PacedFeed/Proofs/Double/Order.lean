import PacedFeed.Proofs.Double.Decimal

-- Rounding keeps numbers in order, so a part of a whole stays between nothing and all of it.

namespace PacedFeed.Double

-- Powers are those of the core library, whatever else is imported.
attribute [local instance (2000)] instPowNat

section Quotients

variable {num den num' den' : Nat}

theorem divNearest_mono_left (den : Nat) (h : num ≤ num') :
    divNearest num den ≤ divNearest num' den := by
  have hquotient : num / den ≤ num' / den := Nat.div_le_div_right h
  have hsplit := Nat.div_add_mod num den
  have hsplit' := Nat.div_add_mod num' den
  unfold divNearest
  by_cases he : num / den = num' / den
  · rw [he] at hsplit ⊢
    split <;> split <;> omega
  · split <;> split <;> omega

-- A quotient that is no larger is rounded to no larger number.
theorem divNearest_mono (h : 0 < den) (h' : 0 < den') (hv : (num : ℚ) / den ≤ num' / den') :
    divNearest num den ≤ divNearest num' den' := by
  have hcross : num * den' ≤ num' * den := by
    have hden : (0 : ℚ) < den := by exact_mod_cast h
    have hden' : (0 : ℚ) < den' := by exact_mod_cast h'
    rw [div_le_div_iff₀ hden hden'] at hv
    exact_mod_cast hv
  calc
    divNearest num den = divNearest (num * den') (den * den') := (divNearest_mul_right h').symm
    _ ≤ divNearest (num' * den) (den * den') := divNearest_mono_left _ hcross
    _ = divNearest (num' * den) (den' * den) := by rw [Nat.mul_comm den den']
    _ = divNearest num' den' := divNearest_mul_right h

theorem divNearest_le {n : Nat} (h : num < den * n) : divNearest num den ≤ n := by
  have hlt : num / den < n := Nat.div_lt_of_lt_mul h
  unfold divNearest
  split <;> omega

end Quotients

section Ranks

variable {value value' : ℚ} {rank rank' : Nat}

-- In one binade the steps decide. Of two binades, the lower one ends where the upper one begins.
theorem Rounds.mono (h : Rounds value rank) (h' : Rounds value' rank') (hv : value ≤ value') :
    rank ≤ rank' := by
  obtain ⟨binade, num, den, hden, hvalue, hlt, hle, rfl⟩ := h
  obtain ⟨binade', num', den', hden', hvalue', hlt', hle', rfl⟩ := h'
  rcases lt_trichotomy binade binade' with hb | rfl | hb
  · have htop := divNearest_le hlt
    have hbottom := le_divNearest hden' (hle'.resolve_left (by omega))
    simp only [Nat.reducePow] at htop hbottom ⊢
    omega
  · have hratio : (num : ℚ) / den ≤ num' / den' := by
      rw [hvalue, hvalue'] at hv
      exact le_of_mul_le_mul_right hv (by positivity)
    exact Nat.add_le_add_left (divNearest_mono hden hden' hratio) _
  · have hlow := le_of_rounds hden hvalue (hle.resolve_left (by omega))
    have hpow := (hlow.trans hv).trans_lt (lt_of_rounds hden' hvalue' hlt')
    rw [zpow_lt_zpow_iff_right₀ one_lt_two] at hpow
    omega

-- What is no larger than a magnitude is rounded to no larger one.
theorem Rounds.le_of_le_units (h : Rounds value rank) (hv : value ≤ units rank') :
    rank ≤ rank' :=
  h.mono (rounds_units rank') hv

theorem units_mono (h : rank ≤ rank') : units rank ≤ units rank' := by
  by_contra hlt
  have hle : (units rank' : ℚ) ≤ units rank := by exact_mod_cast (Nat.lt_of_not_le hlt).le
  have hrank : rank = rank' := Nat.le_antisymm h ((rounds_units rank').mono (rounds_units rank) hle)
  exact hlt (Nat.le_of_eq (congrArg units hrank))

theorem units_eq_zero_iff : units rank = 0 ↔ rank = 0 := by
  refine ⟨fun h => ?_, fun h => by rw [h]; rfl⟩
  have hzero : (units rank : ℚ) = 0 := by exact_mod_cast h
  exact Rounds.unique (hzero ▸ rounds_units rank) rounds_zero

end Ranks

section Order

variable {x y z : Double} {rank rank' : Nat}

protected theorem lt_iff : x < y ↔ ∃ a b, x.place? = some a ∧ y.place? = some b ∧ a < b := by
  change Double.lt x y = true ↔ _
  unfold Double.lt
  cases x.place? <;> cases y.place? <;> simp

protected theorem le_iff : x ≤ y ↔ ∃ a b, x.place? = some a ∧ y.place? = some b ∧ a ≤ b := by
  change Double.le x y = true ↔ _
  unfold Double.le
  cases x.place? <;> cases y.place? <;> simp

-- A number that is not a number is in no order with any, so these do not make a linear order.
protected theorem le_trans (h : x ≤ y) (h' : y ≤ z) : x ≤ z := by
  obtain ⟨a, b, ha, hb, hle⟩ := Double.le_iff.mp h
  obtain ⟨b', c, hb', hc, hle'⟩ := Double.le_iff.mp h'
  obtain rfl := Option.some.inj (hb.symm.trans hb')
  exact Double.le_iff.mpr ⟨a, c, ha, hc, hle.trans hle'⟩

protected theorem lt_of_le_of_lt (h : x ≤ y) (h' : y < z) : x < z := by
  obtain ⟨a, b, ha, hb, hle⟩ := Double.le_iff.mp h
  obtain ⟨b', c, hb', hc, hlt⟩ := Double.lt_iff.mp h'
  obtain rfl := Option.some.inj (hb.symm.trans hb')
  exact Double.lt_iff.mpr ⟨a, c, ha, hc, hle.trans_lt hlt⟩

protected theorem lt_of_lt_of_le (h : x < y) (h' : y ≤ z) : x < z := by
  obtain ⟨a, b, ha, hb, hlt⟩ := Double.lt_iff.mp h
  obtain ⟨b', c, hb', hc, hle⟩ := Double.le_iff.mp h'
  obtain rfl := Option.some.inj (hb.symm.trans hb')
  exact Double.lt_iff.mpr ⟨a, c, ha, hc, hlt.trans_le hle⟩

protected theorem not_le_of_lt (h : x < y) : ¬y ≤ x := by
  obtain ⟨a, b, ha, hb, hlt⟩ := Double.lt_iff.mp h
  intro hyx
  obtain ⟨b', a', hb', ha', hle⟩ := Double.le_iff.mp hyx
  obtain rfl := Option.some.inj (ha.symm.trans ha')
  obtain rfl := Option.some.inj (hb.symm.trans hb')
  exact absurd hlt hle.not_gt

theorem ofRank_of_ge (negative : Bool) (h : magnitudeCount ≤ rank) :
    ofRank negative rank = .infinite negative :=
  dif_neg (Nat.not_lt.mpr h)

-- All ranks beyond the finite ones are infinite.
theorem ofRank_min (rank : Nat) : ofRank false (min rank magnitudeCount) = ofRank false rank := by
  obtain h | h := Nat.le_total rank magnitudeCount
  · rw [Nat.min_eq_left h]
  · rw [Nat.min_eq_right h, ofRank_of_ge false h, ofRank_of_ge false (Nat.le_refl _)]

theorem place?_ofRank (rank : Nat) :
    (ofRank false rank).place? = some ((min rank magnitudeCount : Nat) : Int) := by
  obtain h | h := Nat.lt_or_ge rank magnitudeCount
  · rw [ofRank_of_lt false h, Nat.min_eq_left h.le]
    rfl
  · rw [ofRank_of_ge false h, Nat.min_eq_right h]
    rfl

theorem ofRank_mono (h : rank ≤ rank') : ofRank false rank ≤ ofRank false rank' := by
  refine Double.le_iff.mpr ⟨_, _, place?_ofRank rank, place?_ofRank rank', ?_⟩
  omega

theorem zero_eq : (0 : Double) = ofRank false 0 := rfl

theorem ofRank_lt_ofRank_iff :
    ofRank false rank < ofRank false rank' ↔ rank < rank' ∧ rank < magnitudeCount := by
  simp only [Double.lt_iff, place?_ofRank, Option.some.injEq]
  constructor
  · rintro ⟨a, b, rfl, rfl, hlt⟩
    omega
  · intro h
    exact ⟨_, _, rfl, rfl, by omega⟩

theorem pos_ofRank_iff : 0 < ofRank false rank ↔ rank ≠ 0 := by
  rw [zero_eq, ofRank_lt_ofRank_iff, Nat.pos_iff_ne_zero]
  exact and_iff_left (by decide)

-- What is above a magnitude is one as well, with a higher rank.
theorem exists_rank_of_lt (h : ofRank false rank < x) :
    ∃ rank', rank < rank' ∧ x = ofRank false rank' := by
  obtain ⟨a, b, ha, hb, hlt⟩ := Double.lt_iff.mp h
  rw [place?_ofRank] at ha
  obtain rfl := Option.some.inj ha
  cases x with
  | nan => cases hb
  | infinite negative =>
      cases negative with
      | true =>
          obtain rfl := Option.some.inj hb
          omega
      | false =>
          obtain rfl := Option.some.inj hb
          refine ⟨magnitudeCount, ?_, (ofRank_of_ge false (Nat.le_refl _)).symm⟩
          omega
  | finite negative rank' hrank' =>
      cases negative with
      | true =>
          obtain rfl := Option.some.inj hb
          omega
      | false =>
          obtain rfl := Option.some.inj hb
          refine ⟨rank', ?_, (ofRank_of_lt false hrank').symm⟩
          omega

theorem exists_rank_of_le (hr : rank ≠ 0) (hlt : rank < magnitudeCount)
    (h : ofRank false rank ≤ x) : ∃ rank', rank ≤ rank' ∧ x = ofRank false rank' := by
  have hbelow : ofRank false (rank - 1) < ofRank false rank :=
    ofRank_lt_ofRank_iff.mpr ⟨by omega, by omega⟩
  obtain ⟨rank', hrank', hx⟩ := exists_rank_of_lt (Double.lt_of_lt_of_le hbelow h)
  exact ⟨rank', by omega, hx⟩

end Order

section Operations

variable {rank rank' : Nat}

-- The units of a magnitude, as a number.
theorem cast_units (rank : Nat) :
    (units rank : ℚ) = significand rank * 2 ^ (binade rank : Int) := by
  simp [units]

-- A quotient is the exact one, rounded.
theorem ofRank_div_ofRank (h : rank < magnitudeCount) (h' : rank' < magnitudeCount)
    (hpos : rank' ≠ 0) :
    ∃ quotient, ofRank false rank / ofRank false rank' = ofRank false quotient ∧
      Rounds (units rank / units rank' * 2 ^ (1074 : Int)) quotient := by
  have hsignificand : 0 < significand rank' := by
    refine Nat.pos_of_ne_zero fun hz => hpos (units_eq_zero_iff.mp ?_)
    rw [units, hz, Nat.zero_mul]
  have hrounds := rounds_nearestRank (significand rank) hsignificand
    (1074 + (binade rank : Int) - binade rank')
  refine ⟨nearestRank (significand rank) (significand rank')
    (1074 + (binade rank : Int) - binade rank'), ?_, ?_⟩
  · rw [ofRank_of_lt false h, ofRank_of_lt false h']
    change Double.div _ _ = _
    rw [Double.div, if_neg hpos]
    rfl
  · have hvalue : (units rank / units rank' * 2 ^ (1074 : Int) : ℚ) =
        significand rank / significand rank' * 2 ^ (1074 + (binade rank : Int) - binade rank') := by
      rw [cast_units, cast_units, zpow_sub₀ two_ne_zero, zpow_add₀ two_ne_zero]
      generalize (2 : ℚ) ^ (1074 : Int) = unit
      field_simp
    rwa [hvalue]

-- A product is the exact one, rounded.
theorem ofRank_mul_ofRank (h : rank < magnitudeCount) (h' : rank' < magnitudeCount) :
    ∃ product, ofRank false rank * ofRank false rank' = ofRank false product ∧
      Rounds (units rank * units rank' / 2 ^ (1074 : Int)) product := by
  have hrounds := rounds_nearestRank (significand rank * significand rank') Nat.one_pos
    ((binade rank : Int) + binade rank' - 1074)
  refine ⟨nearestRank (significand rank * significand rank') 1
    ((binade rank : Int) + binade rank' - 1074), ?_, ?_⟩
  · rw [ofRank_of_lt false h, ofRank_of_lt false h']
    rfl
  · have hvalue : (units rank * units rank' / 2 ^ (1074 : Int) : ℚ) =
        (significand rank * significand rank' : Nat) / (1 : Nat) *
          2 ^ ((binade rank : Int) + binade rank' - 1074) := by
      rw [cast_units, cast_units, zpow_sub₀ two_ne_zero, zpow_add₀ two_ne_zero, Nat.cast_mul,
        Nat.cast_one, div_one]
      ring
    rwa [hvalue]

end Operations

section OfNat

theorem ofNat_eq (n : Nat) : ofNat n = ofRank false (nearestRank n 1 1074) := rfl

theorem rounds_ofNat (n : Nat) : Rounds (n * 2 ^ (1074 : Int)) (nearestRank n 1 1074) := by
  have hrounds := rounds_nearestRank n Nat.one_pos 1074
  rwa [Nat.cast_one, div_one] at hrounds

-- A whole number whose digits fit a significand is rounded to itself.
theorem nearestRank_of_significand {n rank : Nat} (shift : Nat)
    (hs : significand rank = n * 2 ^ shift) (hb : (binade rank : Int) + shift = 1074) :
    nearestRank n 1 1074 = rank := by
  have hvalue : (units rank : ℚ) = n * 2 ^ (1074 : Int) := by
    rw [cast_units, hs, ← hb, zpow_add₀ two_ne_zero, zpow_natCast _ shift, Nat.cast_mul,
      Nat.cast_pow, Nat.cast_ofNat, mul_assoc, mul_comm ((2 : ℚ) ^ shift)]
  exact (hvalue ▸ rounds_ofNat n).unique (rounds_units rank)

theorem nearestRank_mono {n m : Nat} (h : n ≤ m) : nearestRank n 1 1074 ≤ nearestRank m 1 1074 := by
  refine (rounds_ofNat n).mono (rounds_ofNat m) ?_
  have hcast : (n : ℚ) ≤ m := by exact_mod_cast h
  gcongr

-- Words are far below the largest double.
theorem nearestRank_lt {n : Nat} (h : n < wordLimit) : nearestRank n 1 1074 < magnitudeCount := by
  let bound : Nat := 1087 * 2 ^ (52 : Nat)
  have hbound : (units bound : ℚ) = 2 ^ (64 : Int) * 2 ^ (1074 : Int) := by
    have hsignificand : significand bound = 2 ^ (52 : Nat) := by decide
    have hbinade : binade bound = 1086 := by decide
    rw [cast_units, hsignificand, hbinade, Nat.cast_pow, Nat.cast_ofNat, ← zpow_natCast,
      ← zpow_add₀ two_ne_zero, ← zpow_add₀ two_ne_zero]
    rfl
  have hword : (n : ℚ) ≤ 2 ^ (64 : Int) := by
    have hle : n ≤ 2 ^ (64 : Nat) := h.le
    exact_mod_cast hle
  have hle : nearestRank n 1 1074 ≤ bound := by
    refine (rounds_ofNat n).le_of_le_units ?_
    rw [hbound]
    exact mul_le_mul_of_nonneg_right hword (by positivity)
  exact hle.trans_lt (by decide)

end OfNat

section Unit

-- The rank of one.
def unitRank : Nat := 1023 * 2 ^ (52 : Nat)

-- The rank of a hundred.
def hundredRank : Nat := 1029 * 2 ^ (52 : Nat) + 36 * 2 ^ (46 : Nat)

theorem nearestRank_one : nearestRank 1 1 1074 = unitRank :=
  nearestRank_of_significand 52 (by decide) (by decide)

theorem one_eq : (1 : Double) = ofRank false unitRank :=
  congrArg (ofRank false) nearestRank_one

theorem hundred_eq : (100 : Double) = ofRank false hundredRank :=
  have hrank : nearestRank 100 1 1074 = hundredRank :=
    nearestRank_of_significand 46 (by decide) (by decide)
  congrArg (ofRank false) hrank

theorem units_unitRank : (units unitRank : ℚ) = 2 ^ (1074 : Int) := by
  have hsignificand : significand unitRank = 2 ^ (52 : Nat) := by decide
  have hbinade : binade unitRank = 1022 := by decide
  rw [cast_units, hsignificand, hbinade, Nat.cast_pow, Nat.cast_ofNat, ← zpow_natCast,
    ← zpow_add₀ two_ne_zero]
  rfl

-- A part of a whole is between nothing and one.
theorem exists_rank_div_ofNat {part whole : Nat} (h : part ≤ whole) (hpos : 0 < whole)
    (hw : whole < wordLimit) :
    ∃ rank ≤ unitRank, ofNat part / ofNat whole = ofRank false rank := by
  have hne : nearestRank whole 1 1074 ≠ 0 := by
    have hle := nearestRank_mono hpos
    rw [nearestRank_one] at hle
    exact Nat.ne_of_gt (Nat.lt_of_lt_of_le (by decide) hle)
  have hpart : nearestRank part 1 1074 < magnitudeCount :=
    (nearestRank_mono h).trans_lt (nearestRank_lt hw)
  obtain ⟨quotient, heq, hrounds⟩ := ofRank_div_ofRank hpart (nearestRank_lt hw) hne
  refine ⟨quotient, hrounds.le_of_le_units ?_, heq⟩
  have hunits : (units (nearestRank part 1 1074) : ℚ) ≤ units (nearestRank whole 1 1074) := by
    exact_mod_cast units_mono (nearestRank_mono h)
  rw [units_unitRank]
  calc
    (units (nearestRank part 1 1074) : ℚ) / units (nearestRank whole 1 1074) * 2 ^ (1074 : Int)
      ≤ 1 * 2 ^ (1074 : Int) := by
        gcongr
        exact div_le_one_of_le₀ hunits (by positivity)
    _ = 2 ^ (1074 : Int) := one_mul _

-- A part of a hundred is no more than a hundred.
theorem exists_rank_mul_hundred {rank : Nat} (h : rank ≤ unitRank) :
    ∃ product ≤ hundredRank, ofRank false rank * 100 = ofRank false product := by
  have hlt : rank < magnitudeCount := h.trans_lt (by decide)
  obtain ⟨product, heq, hrounds⟩ := ofRank_mul_ofRank hlt (by decide : hundredRank < magnitudeCount)
  refine ⟨product, hrounds.le_of_le_units ?_, by rw [hundred_eq, heq]⟩
  have hunits : (units rank : ℚ) ≤ 2 ^ (1074 : Int) := by
    rw [← units_unitRank]
    exact_mod_cast units_mono h
  rw [div_le_iff₀ (by positivity), mul_comm]
  exact mul_le_mul_of_nonneg_left hunits (Nat.cast_nonneg _)

end Unit

-- A finite number from zero up to another one.
structure UpTo (value high : Double) : Prop where
  isFinite : value.isFinite = true
  nonneg : 0 ≤ value
  le : value ≤ high

theorem upTo_of_le {rank top : Nat} (ht : top < magnitudeCount) (h : rank ≤ top) :
    (ofRank false rank).UpTo (ofRank false top) := by
  have hlt : rank < magnitudeCount := h.trans_lt ht
  refine ⟨?_, ?_, ofRank_mono h⟩
  · rw [ofRank_of_lt false hlt]
    rfl
  · rw [zero_eq]
    exact ofRank_mono (Nat.zero_le rank)

end PacedFeed.Double
