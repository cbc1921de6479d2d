import PacedFeed.Proofs.Batcher.Lemmas
import PacedFeed.Telemetry.Tuner

-- Where a recommendation moves the settings of a batcher.

namespace PacedFeed

namespace Adjustment

-- A setting after an adjustment inside bounds, given what it would grow to and shrink to.
def bounded (low high kept grown shrunk : Nat) : Adjustment → Nat
  | .keep => kept
  | .grow => clamp low high grown
  | .shrink => clamp low high shrunk

-- A setting moves the way it is told, unless it is already past the bound on that side. Then it
-- becomes that bound.
def Follows (low high before after : Nat) : Adjustment → Prop
  | .keep => after = before
  | .grow => (before ≤ high → before ≤ after) ∧ (high < before → after = high)
  | .shrink => (low ≤ before → after ≤ before) ∧ (before < low → after = low)

-- How many times an interval is taken before it is divided.
def factor : Adjustment → Nat
  | .keep => 0
  | .grow => 3
  | .shrink => 2

theorem factor_le (adjustment : Adjustment) : adjustment.factor ≤ 3 := by
  cases adjustment <;> decide

theorem factor_le_of_ne_grow {adjustment : Adjustment} (h : adjustment ≠ .grow) :
    adjustment.factor ≤ 2 := by
  cases adjustment with
  | keep => decide
  | grow => exact absurd rfl h
  | shrink => exact Nat.le_refl 2

section Bounded

variable {low high kept grown shrunk : Nat}

-- A setting that is kept may be anywhere. Any other one ends up inside the bounds.
theorem bounded_cases (h : low ≤ high) (adjustment : Adjustment) :
    adjustment.bounded low high kept grown shrunk = kept ∨
      (low ≤ adjustment.bounded low high kept grown shrunk ∧
        adjustment.bounded low high kept grown shrunk ≤ high) := by
  have hclamp (x : Nat) : low ≤ clamp low high x ∧ clamp low high x ≤ high :=
    ⟨Nat.le_max_left _ _, Nat.max_le.mpr ⟨h, Nat.min_le_right _ _⟩⟩
  cases adjustment with
  | keep => exact .inl rfl
  | grow => exact .inr (hclamp grown)
  | shrink => exact .inr (hclamp shrunk)

theorem follows_bounded (h : low ≤ high) {adjustment : Adjustment}
    (hg : adjustment = .grow → kept ≤ grown) (hs : shrunk ≤ kept) :
    adjustment.Follows low high kept (adjustment.bounded low high kept grown shrunk) := by
  cases adjustment with
  | keep => rfl
  | grow =>
      have hle := hg rfl
      simp only [Follows, bounded, clamp]
      omega
  | shrink =>
      simp only [Follows, bounded, clamp]
      omega

-- Below the upper bound, growing comes closer to it.
theorem sub_bounded_grow (hg : kept < grown) :
    high - bounded low high kept grown shrunk .grow ≤ high - kept - 1 := by
  simp only [bounded, clamp]
  omega

theorem bounded_shrink_sub (hs : shrunk < kept) :
    bounded low high kept grown shrunk .shrink - low ≤ kept - low - 1 := by
  simp only [bounded, clamp]
  omega

end Bounded

end Adjustment

namespace TuningConfig

-- The adjustments over numbers without limit.
def exactBatchSize (config : TuningConfig) (size : Nat) (adjustment : Adjustment) : Nat :=
  adjustment.bounded config.minBatchSize config.maxBatchSize size (2 * size) (size / 2)

def exactInterval (config : TuningConfig) (millis : Nat) (adjustment : Adjustment) : Nat :=
  adjustment.bounded config.minIntervalMillis config.maxIntervalMillis millis (3 * millis / 2)
    (2 * millis / 3)

section Bounds

variable {config : TuningConfig}

theorem bounds_of_valid (h : config.fault? = none) :
    (0 < config.minBatchSize ∧ config.minBatchSize ≤ config.maxBatchSize) ∧
      0 < config.minIntervalMillis ∧ config.minIntervalMillis ≤ config.maxIntervalMillis := by
  unfold fault? at h
  split at h
  · cases h
  · split at h
    · cases h
    · omega

theorem adjustBatchSize_eq (size : Nat) (adjustment : Adjustment) :
    config.adjustBatchSize size adjustment =
      adjustment.bounded config.minBatchSize config.maxBatchSize size
        (min (2 * size) (wordLimit - 1)) (size / 2) := by
  cases adjustment <;> rfl

-- A product that is a word is divided as it is. Nothing is adjusted by one that is not.
theorem adjustInterval_eq (millis : Nat) (adjustment : Adjustment) :
    config.adjustInterval millis adjustment =
      (word (adjustment.factor * millis)).map fun _ => config.exactInterval millis adjustment := by
  have hbounded {factor : Nat} (divided : Nat → Nat) :
      Id.run (ExceptT.run (do
        let product ← (word (factor * millis) : ExceptT Overflow Id Nat)
        clampM config.minIntervalMillis config.maxIntervalMillis (divided product))) =
      (word (factor * millis)).map fun _ =>
        clamp config.minIntervalMillis config.maxIntervalMillis (divided (factor * millis)) := by
    rcases Nat.lt_or_ge (factor * millis) wordLimit with h | h
    · rw [word_of_lt h]
      rfl
    · rw [word_of_le h]
      rfl
  cases adjustment with
  | keep =>
      rw [Adjustment.factor, Nat.zero_mul]
      rfl
  | grow => exact hbounded (· / 2)
  | shrink => exact hbounded (· / 3)

theorem adjustBatchSize_cases (h : config.fault? = none) (size : Nat) (adjustment : Adjustment) :
    config.adjustBatchSize size adjustment = size ∨
      (config.minBatchSize ≤ config.adjustBatchSize size adjustment ∧
        config.adjustBatchSize size adjustment ≤ config.maxBatchSize) := by
  rw [adjustBatchSize_eq]
  exact Adjustment.bounded_cases (bounds_of_valid h).1.2 adjustment

theorem exactBatchSize_cases (h : config.fault? = none) (size : Nat) (adjustment : Adjustment) :
    config.exactBatchSize size adjustment = size ∨
      (config.minBatchSize ≤ config.exactBatchSize size adjustment ∧
        config.exactBatchSize size adjustment ≤ config.maxBatchSize) :=
  Adjustment.bounded_cases (bounds_of_valid h).1.2 adjustment

theorem exactInterval_cases (h : config.fault? = none) (millis : Nat) (adjustment : Adjustment) :
    config.exactInterval millis adjustment = millis ∨
      (config.minIntervalMillis ≤ config.exactInterval millis adjustment ∧
        config.exactInterval millis adjustment ≤ config.maxIntervalMillis) :=
  Adjustment.bounded_cases (bounds_of_valid h).2.2 adjustment

theorem follows_exactBatchSize (h : config.fault? = none) (size : Nat) (adjustment : Adjustment) :
    adjustment.Follows config.minBatchSize config.maxBatchSize size
      (config.exactBatchSize size adjustment) :=
  Adjustment.follows_bounded (bounds_of_valid h).1.2
    (fun _ => Nat.le_mul_of_pos_left _ (by decide)) (Nat.div_le_self _ _)

theorem follows_exactInterval (h : config.fault? = none) (millis : Nat) (adjustment : Adjustment) :
    adjustment.Follows config.minIntervalMillis config.maxIntervalMillis millis
      (config.exactInterval millis adjustment) := by
  refine Adjustment.follows_bounded (bounds_of_valid h).2.2 (fun _ => ?_) ?_
  · omega
  · omega

end Bounds

end TuningConfig

namespace Batcher

section Retune

variable (batcher : Batcher) {size millis : Nat}

-- Only settings change.
theorem pending_retune (size millis : Nat) (dedup : Bool) :
    (batcher.retune size millis dedup).pending = batcher.pending := by
  have hsettings :
      ((batcher.setMaxBatchSize size).setInterval (Duration.ofMillis millis)).pending =
        batcher.pending := by
    rw [pending_setInterval, pending_setMaxBatchSize]
  cases dedup with
  | false => exact hsettings
  | true => exact hsettings

theorem maxBatchSize_retune (h : 0 < size) (millis : Nat) (dedup : Bool) :
    (batcher.retune size millis dedup).config.maxBatchSize = size := by
  have hsettings :
      ((batcher.setMaxBatchSize size).setInterval
        (Duration.ofMillis millis)).config.maxBatchSize = size := by
    rw [maxBatchSize_setInterval, maxBatchSize_setMaxBatchSize _ h]
  cases dedup with
  | false => exact hsettings
  | true => exact hsettings

theorem config_retune (hs : 0 < size) (hm : 0 < millis) (hl : millis < wordLimit) (dedup : Bool) :
    (batcher.retune size millis dedup).config =
      { batcher.config with
        maxBatchSize := size
        intervalMillis := millis
        dedup := batcher.config.dedup || dedup } := by
  have hsettings :
      ((batcher.setMaxBatchSize size).setInterval (Duration.ofMillis millis)).config =
        { batcher.config with maxBatchSize := size, intervalMillis := millis } := by
    rw [config_setInterval _ hm hl, config_setMaxBatchSize _ hs]
  cases dedup with
  | false =>
      rw [Bool.or_false]
      exact hsettings
  | true =>
      rw [Bool.or_true]
      exact congrArg (fun settings : BatcherConfig => { settings with dedup := true }) hsettings

-- Repeats that are dropped go on being dropped.
theorem dedup_retune (h : batcher.config.dedup = true) (size millis : Nat) (dedup : Bool) :
    (batcher.retune size millis dedup).config.dedup = true := by
  have hsettings :
      ((batcher.setMaxBatchSize size).setInterval (Duration.ofMillis millis)).config.dedup =
        true := by
    unfold setInterval setMaxBatchSize
    dsimp only
    split <;> split <;> exact h
  cases dedup with
  | false => exact hsettings
  | true => rfl

end Retune

end Batcher

namespace TuningConfig

section Apply

variable (config : TuningConfig) (recommendation : Recommendation) (batcher : Batcher)

theorem apply_eq :
    config.apply recommendation batcher =
      (config.adjustInterval batcher.config.intervalMillis recommendation.batchInterval).map
        fun millis => batcher.retune
          (config.adjustBatchSize batcher.config.maxBatchSize recommendation.batchSize) millis
          recommendation.aggressiveDedup := by
  have hsize : (config.adjustBatchSizeM batcher.config.maxBatchSize recommendation.batchSize :
      ExceptT Overflow Id Nat) =
      pure (config.adjustBatchSize batcher.config.maxBatchSize recommendation.batchSize) := by
    cases recommendation.batchSize <;> rfl
  have hinterval : (config.adjustIntervalM batcher.config.intervalMillis
      recommendation.batchInterval : ExceptT Overflow Id Nat) =
      .mk (config.adjustInterval batcher.config.intervalMillis recommendation.batchInterval) := rfl
  rw [apply, applyM, hsize, pure_bind, hinterval]
  cases config.adjustInterval batcher.config.intervalMillis recommendation.batchInterval <;> rfl

-- The settings that a recommendation asks for are found, or a product is not a word.
theorem apply_cases :
    let product := recommendation.batchInterval.factor * batcher.config.intervalMillis
    (product < wordLimit ∧
      config.apply recommendation batcher = .ok (batcher.retune
        (config.adjustBatchSize batcher.config.maxBatchSize recommendation.batchSize)
        (config.exactInterval batcher.config.intervalMillis recommendation.batchInterval)
        recommendation.aggressiveDedup)) ∨
    (wordLimit ≤ product ∧ config.apply recommendation batcher = .error ⟨product⟩) := by
  intro product
  rw [apply_eq, adjustInterval_eq]
  rcases Nat.lt_or_ge product wordLimit with h | h
  · rw [word_of_lt h]
    exact .inl ⟨h, rfl⟩
  · rw [word_of_le h]
    exact .inr ⟨h, rfl⟩

theorem apply_error_iff {overflow : Overflow} :
    config.apply recommendation batcher = .error overflow ↔
      wordLimit ≤ recommendation.batchInterval.factor * batcher.config.intervalMillis ∧
        overflow = ⟨recommendation.batchInterval.factor * batcher.config.intervalMillis⟩ := by
  obtain ⟨hlt, happly⟩ | ⟨hle, happly⟩ := config.apply_cases recommendation batcher
  · rw [happly]
    constructor
    · intro h
      cases h
    · rintro ⟨hle, -⟩
      exact absurd hlt (Nat.not_lt.mpr hle)
  · rw [happly]
    exact ⟨fun h => ⟨hle, (Except.error.inj h).symm⟩, fun h => congrArg Except.error h.2.symm⟩

theorem exists_apply_iff :
    (∃ next, config.apply recommendation batcher = .ok next) ↔
      recommendation.batchInterval.factor * batcher.config.intervalMillis < wordLimit := by
  obtain ⟨hlt, happly⟩ | ⟨hle, happly⟩ := config.apply_cases recommendation batcher
  · exact ⟨fun _ => hlt, fun _ => ⟨_, happly⟩⟩
  · refine ⟨fun ⟨next, hnext⟩ => ?_, fun hlt => absurd hlt (Nat.not_lt.mpr hle)⟩
    cases hnext.symm.trans happly

-- A batcher that takes a recommendation if it can.
def follow : Batcher :=
  (config.apply recommendation batcher).toOption.getD batcher

section Follow

variable {config : TuningConfig} {recommendation : Recommendation} {batcher next : Batcher}

theorem follow_of_ok (h : config.apply recommendation batcher = .ok next) :
    config.follow recommendation batcher = next := by
  rw [follow, h]
  rfl

theorem follow_of_error {overflow : Overflow}
    (h : config.apply recommendation batcher = .error overflow) :
    config.follow recommendation batcher = batcher := by
  rw [follow, h]
  rfl

theorem eq_retune_of_apply (h : config.apply recommendation batcher = .ok next) :
    next = batcher.retune
      (config.adjustBatchSize batcher.config.maxBatchSize recommendation.batchSize)
      (config.exactInterval batcher.config.intervalMillis recommendation.batchInterval)
      recommendation.aggressiveDedup := by
  obtain ⟨-, hok⟩ | ⟨-, herror⟩ := config.apply_cases recommendation batcher
  · exact Except.ok.inj (h.symm.trans hok)
  · cases h.symm.trans herror

end Follow

end Apply

end TuningConfig

-- Settings that are valid, with an interval that is a word.
structure BatcherConfig.Usable (settings : BatcherConfig) : Prop where
  maxBatchSize_pos : 0 < settings.maxBatchSize
  intervalMillis_pos : 0 < settings.intervalMillis
  intervalMillis_lt : settings.intervalMillis < wordLimit

namespace TuningConfig

-- Bounds that are valid, in words.
structure Usable (config : TuningConfig) : Prop where
  valid : config.fault? = none
  maxBatchSize_lt : config.maxBatchSize < wordLimit
  maxIntervalMillis_lt : config.maxIntervalMillis < wordLimit

-- The settings that a recommendation asks for in place of others.
def adjusted (config : TuningConfig) (settings : BatcherConfig) (recommendation : Recommendation) :
    BatcherConfig :=
  { settings with
    maxBatchSize := config.exactBatchSize settings.maxBatchSize recommendation.batchSize
    intervalMillis := config.exactInterval settings.intervalMillis recommendation.batchInterval
    dedup := settings.dedup || recommendation.aggressiveDedup }

section Adjusted

variable {config : TuningConfig} (hu : config.Usable)
include hu

-- Where doubling stops is past the upper bound.
theorem Usable.adjustBatchSize_eq_exact (size : Nat) (adjustment : Adjustment) :
    config.adjustBatchSize size adjustment = config.exactBatchSize size adjustment := by
  have hlt := hu.maxBatchSize_lt
  rw [adjustBatchSize_eq, exactBatchSize]
  cases adjustment with
  | keep | shrink => rfl
  | grow =>
      simp only [Adjustment.bounded, clamp]
      omega

theorem Usable.adjusted {settings : BatcherConfig} (hs : settings.Usable)
    (recommendation : Recommendation) : (config.adjusted settings recommendation).Usable := by
  obtain ⟨⟨hleast, -⟩, hshortest, -⟩ := bounds_of_valid hu.valid
  have hsize : 0 < config.exactBatchSize settings.maxBatchSize recommendation.batchSize := by
    obtain hkept | ⟨hlow, -⟩ :=
      exactBatchSize_cases hu.valid settings.maxBatchSize recommendation.batchSize
    · rw [hkept]
      exact hs.maxBatchSize_pos
    · exact Nat.lt_of_lt_of_le hleast hlow
  have hinterval :
      0 < config.exactInterval settings.intervalMillis recommendation.batchInterval ∧
        config.exactInterval settings.intervalMillis recommendation.batchInterval < wordLimit := by
    obtain hkept | ⟨hlow, hhigh⟩ :=
      exactInterval_cases hu.valid settings.intervalMillis recommendation.batchInterval
    · rw [hkept]
      exact ⟨hs.intervalMillis_pos, hs.intervalMillis_lt⟩
    · exact ⟨Nat.lt_of_lt_of_le hshortest hlow,
        Nat.lt_of_le_of_lt hhigh hu.maxIntervalMillis_lt⟩
  exact ⟨hsize, hinterval.1, hinterval.2⟩

-- A batcher takes on what is asked for.
theorem Usable.config_of_apply {batcher next : Batcher} (hs : batcher.config.Usable)
    {recommendation : Recommendation} (h : config.apply recommendation batcher = .ok next) :
    next.config = config.adjusted batcher.config recommendation := by
  obtain ⟨hsize, hmillis, hlt⟩ := hu.adjusted hs recommendation
  rw [eq_retune_of_apply h, hu.adjustBatchSize_eq_exact]
  exact batcher.config_retune hsize hmillis hlt recommendation.aggressiveDedup

end Adjusted

end TuningConfig

end PacedFeed
