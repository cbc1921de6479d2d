import PacedFeed.Coordinator.Frame
import PacedFeed.Proofs.Coordinator.Reports
import PacedFeed.Proofs.Telemetry.FrameRate
import PacedFeed.Proofs.Trace

-- The budget that a frame rate leads to: no smaller at a better rate, and how far it moves.

namespace PacedFeed

open Double

-- Powers are those of the core library, whatever else is imported.
attribute [local instance (2000)] instPowNat

namespace BudgetConfig

-- What becomes of a budget, before it is brought inside the bounds.
def grown (config : BudgetConfig) (budget : Nat) : Nat :=
  (ofNat budget * config.growFactor).toWord .ceiling

def shrunk (config : BudgetConfig) (budget : Nat) : Nat :=
  (ofNat budget * config.shrinkFactor).toWord .nearest

def kept (budget : Nat) : Nat :=
  (ofNat budget).toWord .floor

-- Shrinking takes no more than a half off such a budget, and rounding gives it back.
def Stuck (config : BudgetConfig) (budget : Nat) : Prop :=
  budget - 1 / 2 ≤ (ofNat budget * config.shrinkFactor).value

instance (config : BudgetConfig) (budget : Nat) : Decidable (config.Stuck budget) :=
  inferInstanceAs (Decidable (_ ≤ _))

-- A budget inside the bounds.
structure Admits (config : BudgetConfig) (budget : Nat) : Prop where
  min_le : config.min ≤ budget
  le_max : budget ≤ config.max

theorem scaled_eq (config : BudgetConfig) (budget : Nat) (ratio : Double) :
    config.scaled budget ratio =
      if config.growRatio ≤ ratio then config.grown budget
      else if ratio < config.shrinkRatio then config.shrunk budget
      else kept budget := rfl

section Valid

variable {config : BudgetConfig} (h : config.fault? = none)
include h

theorem bounds_of_valid : 0 < config.min ∧ config.min ≤ config.max := by
  unfold fault? at h
  split at h
  · cases h
  · split at h
    · cases h
    · omega

theorem factors_of_valid :
    1 ≤ config.growFactor ∧ 0 < config.shrinkFactor ∧ config.shrinkFactor ≤ 1 := by
  unfold fault? at h
  iterate 3
    split at h
    · cases h
  split at h
  · cases h
  · rename_i hfactors
    rw [not_or, not_not, not_not] at hfactors
    exact hfactors

theorem exists_rank_growFactor :
    ∃ rank, unitRank ≤ rank ∧ config.growFactor = ofRank false rank := by
  obtain ⟨hgrow, -⟩ := factors_of_valid h
  rw [one_eq] at hgrow
  exact exists_rank_of_le (by decide) (by decide) hgrow

theorem exists_rank_shrinkFactor :
    ∃ rank, rank ≤ unitRank ∧ config.shrinkFactor = ofRank false rank := by
  obtain ⟨-, hpos, hle⟩ := factors_of_valid h
  obtain ⟨rank, -, hrank⟩ := exists_rank_of_lt (zero_eq ▸ hpos)
  refine ⟨rank, ?_, hrank⟩
  by_contra hlt
  rw [hrank, one_eq] at hle
  have habove : ofRank false unitRank < ofRank false rank :=
    ofRank_lt_ofRank_iff.mpr ⟨Nat.lt_of_not_le hlt, by decide⟩
  exact Double.not_le_of_lt habove hle

end Valid

section Product

variable {budget : Nat} (hb : budget < wordLimit)
include hb

theorem exists_product {factor : Nat} (hf : factor < magnitudeCount) :
    ∃ product, ofNat budget * ofRank false factor = ofRank false product ∧
      Rounds (units (nearestRank budget 1 1074) * magnitude factor) product := by
  obtain ⟨product, heq, hrounds⟩ := ofRank_mul_ofRank (nearestRank_lt hb) hf
  rw [mul_div_assoc] at hrounds
  exact ⟨product, heq, hrounds⟩

theorem ofNat_mul_infinite (hpos : 0 < budget) :
    ofNat budget * .infinite false = .infinite false := by
  rw [ofNat_eq, ofRank_of_lt false (nearestRank_lt hb)]
  change Double.mul _ _ = _
  rw [Double.mul, if_neg (ofNat_ne_zero hpos)]
  rfl

end Product

section Scaled

variable {config : BudgetConfig} (h : config.fault? = none)
variable {budget : Nat} (hb : budget < wordLimit)

theorem exists_kept (budget : Nat) :
    ∃ n : Nat, magnitude (nearestRank budget 1 1074) = n ∧
      kept budget = Min.min n (wordLimit - 1) := by
  obtain ⟨n, hn⟩ := exists_magnitude_ofNat budget
  refine ⟨n, hn, ?_⟩
  rw [kept, ofNat_eq, toWord_ofRank, hn, Whole.round_natCast]

include h hb

-- The factor is at least one, and may be infinite.
theorem exists_rank_grown (hpos : 0 < budget) :
    ∃ rank, nearestRank budget 1 1074 ≤ rank ∧
      (1 < config.growFactor → nearestRank budget 1 1074 < rank) ∧
      ofNat budget * config.growFactor = ofRank false rank := by
  obtain ⟨factor, hfactor, heq⟩ := exists_rank_growFactor h
  by_cases hfinite : factor < magnitudeCount
  · obtain ⟨product, hproduct, hrounds⟩ := exists_product hb hfinite
    refine ⟨product, le_product hrounds hfactor, fun hgrow => ?_, by rw [heq, hproduct]⟩
    rw [heq, one_eq, ofRank_lt_ofRank_iff] at hgrow
    exact lt_product hrounds (binade_ofNat_ne_zero hpos) hgrow.1
  · have hlt := nearestRank_lt hb
    refine ⟨magnitudeCount, hlt.le, fun _ => hlt, ?_⟩
    rw [heq, ofRank_of_ge false (Nat.not_lt.mp hfinite), ofNat_mul_infinite hb hpos,
      ofRank_of_ge false (Nat.le_refl _)]

theorem kept_le_grown : kept budget ≤ config.grown budget := by
  obtain ⟨n, hn, hkept⟩ := exists_kept budget
  obtain rfl | hpos := Nat.eq_zero_or_pos budget
  · have hzero : kept 0 = 0 := by decide +kernel
    rw [hzero]
    exact Nat.zero_le _
  · obtain ⟨rank, hle, -, heq⟩ := exists_rank_grown h hb hpos
    have hround := Whole.ceiling.round_mono (magnitude_mono hle)
    rw [hn, Whole.round_natCast] at hround
    rw [grown, heq, toWord_ofRank, hkept]
    omega

-- However close to one the factor is, a budget that is rounded up does grow, until it is the
-- largest word.
theorem min_succ_le_grown (hf : 1 < config.growFactor) (hpos : 0 < budget) :
    Min.min (budget + 1) (wordLimit - 1) ≤ config.grown budget := by
  obtain ⟨rank, -, hrank, heq⟩ := exists_rank_grown h hb hpos
  have hround : budget < Whole.ceiling.round (magnitude rank) := by
    rw [Whole.round, Nat.lt_ceil]
    exact lt_magnitude_of_lt (hrank hf)
  rw [grown, heq, toWord_ofRank]
  omega

theorem shrunk_le_kept : config.shrunk budget ≤ kept budget := by
  obtain ⟨n, hn, hkept⟩ := exists_kept budget
  obtain ⟨factor, hfactor, heq⟩ := exists_rank_shrinkFactor h
  obtain ⟨product, hproduct, hrounds⟩ := exists_product hb (hfactor.trans_lt (by decide))
  have hround := Whole.nearest.round_mono (magnitude_mono (product_le hrounds hfactor))
  rw [hn, Whole.round_natCast] at hround
  rw [shrunk, heq, hproduct, toWord_ofRank, hkept]
  omega

-- A better frame rate leads to no smaller budget.
theorem scaled_mono {slow fast : Double} (hr : slow ≤ fast) :
    config.scaled budget slow ≤ config.scaled budget fast := by
  have hgrown := kept_le_grown h hb
  have hshrunk := shrunk_le_kept h hb
  rw [scaled_eq, scaled_eq]
  by_cases hfast : config.growRatio ≤ fast
  · rw [if_pos hfast]
    split
    · exact Nat.le_refl _
    · split <;> omega
  · have hslow : ¬config.growRatio ≤ slow := fun hle => hfast (Double.le_trans hle hr)
    rw [if_neg hfast, if_neg hslow]
    by_cases hbad : fast < config.shrinkRatio
    · rw [if_pos hbad, if_pos (Double.lt_of_le_of_lt hr hbad)]
    · rw [if_neg hbad]
      split <;> omega

end Scaled

section Shrunk

variable {config : BudgetConfig} (h : config.fault? = none) (hs : config.shrinkFactor < 1)
variable {budget : Nat} (hpos : 0 < budget) (hb : budget < wordLimit)
include h hs hpos hb

theorem exists_rank_shrunk :
    ∃ factor rank, factor < unitRank ∧ rank < nearestRank budget 1 1074 ∧
      config.shrinkFactor.value = magnitude factor ∧
      ofNat budget * config.shrinkFactor = ofRank false rank ∧
      Rounds (units (nearestRank budget 1 1074) * magnitude factor) rank := by
  obtain ⟨factor, -, heq⟩ := exists_rank_shrinkFactor h
  rw [heq, one_eq, ofRank_lt_ofRank_iff] at hs
  obtain ⟨hlt, hfinite⟩ := hs
  obtain ⟨product, hproduct, hrounds⟩ := exists_product hb hfinite
  refine ⟨factor, product, hlt, product_lt hrounds (binade_ofNat_ne_zero hpos) hlt, ?_, ?_, hrounds⟩
  · rw [heq, value_ofRank hfinite]
  · rw [heq, hproduct]

theorem shrunk_le : config.shrunk budget ≤ budget := by
  obtain ⟨-, rank, -, hrank, -, heq, -⟩ := exists_rank_shrunk h hs hpos hb
  have hbelow := magnitude_lt_of_lt hrank
  have hround : Whole.nearest.round (magnitude rank) ≤ budget := by
    rw [Whole.round, ← Nat.lt_succ_iff, Nat.floor_lt' (Nat.succ_ne_zero _), Nat.cast_succ]
    linarith
  rw [shrunk, heq, toWord_ofRank]
  omega

theorem shrunk_lt_iff : config.shrunk budget < budget ↔ ¬config.Stuck budget := by
  obtain ⟨-, rank, -, hrank, -, heq, -⟩ := exists_rank_shrunk h hs hpos hb
  have hfinite := hrank.trans (nearestRank_lt hb)
  have hround : Whole.nearest.round (magnitude rank) < budget ↔ ¬config.Stuck budget := by
    rw [Stuck, heq, value_ofRank hfinite, Whole.round, Nat.floor_lt' hpos.ne', not_le,
      lt_sub_iff_add_lt]
  rw [shrunk, heq, toWord_ofRank, ← hround]
  omega

-- A budget does shrink where a whole one comes off. Beyond the significands, every step between
-- doubles is that wide.
theorem not_stuck_of_one_le (hone : 1 ≤ budget * (1 - config.shrinkFactor.value)) :
    ¬config.Stuck budget := by
  obtain ⟨factor, rank, -, hrank, hfactor, heq, hrounds⟩ := exists_rank_shrunk h hs hpos hb
  have hfinite := hrank.trans (nearestRank_lt hb)
  have hbelow := magnitude_lt_of_lt hrank
  suffices hwhole : magnitude rank ≤ (budget - 1 : Nat) by
    rw [Stuck, heq, value_ofRank hfinite, not_le]
    rw [Nat.cast_pred hpos] at hwhole
    linarith
  by_cases hexact : budget < 2 ^ (53 : Nat)
  · have hpred : magnitude (nearestRank (budget - 1) 1 1074) = (budget - 1 : Nat) :=
      magnitude_ofNat (by omega)
    rw [← hpred]
    refine magnitude_mono (product_le_of_le hrounds ?_)
    rw [hpred, magnitude_ofNat hexact, ← hfactor, Nat.cast_pred hpos]
    linarith
  · have hlast : magnitude (nearestRank (2 ^ (53 : Nat) - 1) 1 1074) = (2 ^ (53 : Nat) - 1 : Nat) :=
      magnitude_ofNat (by decide)
    obtain hle | hle := Nat.le_total rank (nearestRank (2 ^ (53 : Nat) - 1) 1 1074)
    · refine (magnitude_mono hle).trans ?_
      rw [hlast]
      exact Nat.cast_le.mpr (by omega)
    · have hbinade := le_binade_ofNat (n := 2 ^ (53 : Nat) - 1) (by decide)
      obtain ⟨n, hn⟩ := exists_magnitude_eq_natCast (hbinade.trans (binade_mono hle))
      rw [hn] at hbelow ⊢
      exact Nat.cast_le.mpr (Nat.le_pred_of_lt (Nat.cast_lt.mp hbelow))

-- It does not where no more than a half comes off.
theorem stuck_of_le_half (hhalf : budget * (1 - config.shrinkFactor.value) ≤ 1 / 2) :
    config.Stuck budget := by
  obtain ⟨factor, rank, hlt, hrank, hfactor, heq, hrounds⟩ := exists_rank_shrunk h hs hpos hb
  have hfinite := hrank.trans (nearestRank_lt hb)
  have hnext := magnitude_le_of_lt_unitRank hlt
  rw [hfactor] at hhalf
  -- such a budget is small enough for a half below it to be a double
  have hsmall : budget ≤ 2 ^ (52 : Nat) := by
    have hle : (budget : ℚ) * (1 / 2 ^ (53 : Nat)) ≤ 1 / 2 :=
      (mul_le_mul_of_nonneg_left (by linarith) (Nat.cast_nonneg _)).trans hhalf
    rw [mul_one_div, div_le_iff₀ (by positivity)] at hle
    have hcast : (budget : ℚ) ≤ 2 ^ (52 : Nat) := hle.trans (by norm_num)
    exact_mod_cast hcast
  obtain ⟨below, hbelow⟩ := exists_units_eq (show 2 * budget - 1 < 2 ^ (53 : Nat) by omega) 1073
  have hvalue : magnitude below = budget - 1 / 2 := by
    have hcast : ((2 * budget - 1 : Nat) : ℚ) = 2 * budget - 1 := by
      rw [Nat.cast_pred (by omega), Nat.cast_mul, Nat.cast_ofNat]
    rw [magnitude_eq_of_units hbelow, hcast]
    norm_num
    ring
  rw [Stuck, heq, value_ofRank hfinite, ← hvalue]
  refine magnitude_mono (le_product_of_le hrounds ?_)
  rw [hvalue, magnitude_ofNat (hsmall.trans_lt (by decide))]
  linarith

omit hpos hb in
-- Where a whole one comes off the least budget above the lower bound, only the lower bound can be
-- stuck.
theorem eq_min_of_stuck (ha : config.Admits budget) (hw : config.max < wordLimit)
    (hone : 1 ≤ (config.min + 1) * (1 - config.shrinkFactor.value))
    (hstuck : config.Stuck budget) : budget = config.min := by
  obtain ⟨hmin, hmax⟩ := ha
  by_contra hne
  have hnext : ((config.min + 1 : Nat) : ℚ) ≤ budget := Nat.cast_le.mpr (by omega)
  have hshare : 0 < 1 - config.shrinkFactor.value :=
    pos_of_mul_pos_right (zero_lt_one.trans_le hone) (by positivity)
  have hwhole : 1 ≤ budget * (1 - config.shrinkFactor.value) :=
    calc
      1 ≤ (config.min + 1) * (1 - config.shrinkFactor.value) := hone
      _ = (config.min + 1 : Nat) * (1 - config.shrinkFactor.value) := by rw [Nat.cast_succ]
      _ ≤ budget * (1 - config.shrinkFactor.value) := mul_le_mul_of_nonneg_right hnext hshare.le
  exact not_stuck_of_one_le h hs (by omega) (by omega) hwhole hstuck

end Shrunk

end BudgetConfig

theorem clamp_mono {low high x y : Nat} (h : x ≤ y) : clamp low high x ≤ clamp low high y := by
  unfold clamp
  omega

-- The rate to aim for is a number above zero.
theorem PipelineConfig.exists_rank_targetFps {config : PipelineConfig} (h : config.fault? = none) :
    ∃ rank, rank ≠ 0 ∧ rank < magnitudeCount ∧ config.targetFps = ofRank false rank := by
  have husable : config.hasUsableFps = true := by
    unfold fault? at h
    split at h
    · cases h
    · split at h
      · cases h
      · rename_i hfps
        simpa using hfps
  simp only [hasUsableFps, Bool.and_eq_true, Bool.not_eq_true', decide_eq_false_iff_not] at husable
  obtain ⟨⟨hfinite, hpos⟩, -⟩ := husable
  generalize config.targetFps = target at hfinite hpos
  cases target with
  | nan => cases hfinite
  | infinite negative => cases hfinite
  | finite negative rank hrank =>
      cases negative with
      | true =>
          refine absurd (Double.le_iff.mpr ⟨-rank, 0, rfl, by decide, ?_⟩) hpos
          omega
      | false =>
          refine ⟨rank, fun hzero => hpos ?_, hrank, (ofRank_of_lt false hrank).symm⟩
          exact Double.le_iff.mpr ⟨rank, 0, rfl, by decide, by omega⟩

namespace Coordinator

-- How the frame rate relates to the one to aim for.
def frameRatio (coordinator : Coordinator) : Double :=
  coordinator.monitor.averageFps / coordinator.config.targetFps

-- The frames were too slow.
structure Degraded (coordinator : Coordinator) : Prop where
  sampled : coordinator.monitor.sampleCount ≠ 0
  lt_shrinkRatio : coordinator.frameRatio < coordinator.config.budget.shrinkRatio
  lt_growRatio : coordinator.frameRatio < coordinator.config.budget.growRatio

-- The frames were fast enough.
structure Healthy (coordinator : Coordinator) : Prop where
  sampled : coordinator.monitor.sampleCount ≠ 0
  growRatio_le : coordinator.config.budget.growRatio ≤ coordinator.frameRatio

instance (coordinator : Coordinator) : Decidable coordinator.Degraded :=
  decidable_of_iff (coordinator.monitor.sampleCount ≠ 0 ∧
      coordinator.frameRatio < coordinator.config.budget.shrinkRatio ∧
      coordinator.frameRatio < coordinator.config.budget.growRatio)
    ⟨fun ⟨hs, hshrink, hgrow⟩ => ⟨hs, hshrink, hgrow⟩, fun ⟨hs, hshrink, hgrow⟩ =>
      ⟨hs, hshrink, hgrow⟩⟩

instance (coordinator : Coordinator) : Decidable coordinator.Healthy :=
  decidable_of_iff (coordinator.monitor.sampleCount ≠ 0 ∧
      coordinator.config.budget.growRatio ≤ coordinator.frameRatio)
    ⟨fun ⟨hs, hgrow⟩ => ⟨hs, hgrow⟩, fun ⟨hs, hgrow⟩ => ⟨hs, hgrow⟩⟩

-- What the frames of a coordinator make of any budget.
def budgetAfter (coordinator : Coordinator) (budget : Nat) : Nat :=
  nextBudget { coordinator with budget := budget }

-- A coordinator with other frames behind it.
def withFrames (coordinator : Coordinator) (frames : Fifo Duration) : Coordinator :=
  { coordinator with monitor := { coordinator.monitor with frames := frames } }

section Next

variable {coordinator : Coordinator} {budget : Nat}

theorem budgetAfter_of_unsampled (h : coordinator.monitor.sampleCount = 0) :
    coordinator.budgetAfter budget = budget :=
  if_pos h

theorem budgetAfter_of_sampled (h : coordinator.monitor.sampleCount ≠ 0) :
    coordinator.budgetAfter budget =
      clamp coordinator.config.budget.min coordinator.config.budget.max
        (coordinator.config.budget.scaled budget coordinator.frameRatio) :=
  if_neg h

theorem Degraded.budgetAfter_eq (h : coordinator.Degraded) :
    coordinator.budgetAfter budget =
      clamp coordinator.config.budget.min coordinator.config.budget.max
        (coordinator.config.budget.shrunk budget) := by
  rw [budgetAfter_of_sampled h.sampled, BudgetConfig.scaled_eq,
    if_neg (Double.not_le_of_lt h.lt_growRatio), if_pos h.lt_shrinkRatio]

theorem Healthy.budgetAfter_eq (h : coordinator.Healthy) :
    coordinator.budgetAfter budget =
      clamp coordinator.config.budget.min coordinator.config.budget.max
        (coordinator.config.budget.grown budget) := by
  rw [budgetAfter_of_sampled h.sampled, BudgetConfig.scaled_eq, if_pos h.growRatio_le]

end Next

section Moves

variable {coordinator : Coordinator} {config : BudgetConfig}
variable (hc : coordinator.config.budget = config) (hv : config.fault? = none)
variable {budget : Nat} (hb : config.Admits budget) (hw : config.max < wordLimit)
include hc hv hb

-- Whatever the frames were, and whatever the factors make of it, a budget stays inside the bounds.
theorem admits_budgetAfter : config.Admits (coordinator.budgetAfter budget) := by
  obtain ⟨-, hle⟩ := BudgetConfig.bounds_of_valid hv
  by_cases h : coordinator.monitor.sampleCount = 0
  · rwa [budgetAfter_of_unsampled h]
  · rw [budgetAfter_of_sampled h, hc, clamp]
    constructor <;> omega

include hw

-- Fast frames bring a budget closer to the upper bound.
theorem Healthy.sub_budgetAfter_le (h : coordinator.Healthy) (hf : 1 < config.growFactor) :
    config.max - coordinator.budgetAfter budget ≤ config.max - budget - 1 := by
  obtain ⟨hpos, -⟩ := BudgetConfig.bounds_of_valid hv
  obtain ⟨hmin, hmax⟩ := hb
  have hgrown : Min.min (budget + 1) (wordLimit - 1) ≤ config.grown budget :=
    BudgetConfig.min_succ_le_grown hv (by omega) hf (by omega)
  rw [h.budgetAfter_eq, hc, clamp]
  omega

theorem Healthy.lt_budgetAfter (h : coordinator.Healthy) (hf : 1 < config.growFactor)
    (hlt : budget < config.max) : budget < coordinator.budgetAfter budget := by
  have hcloser := h.sub_budgetAfter_le hc hv hb hw hf
  omega

-- Slow ones bring it closer to the lower bound, unless it is stuck.
theorem Degraded.budgetAfter_of_stuck (h : coordinator.Degraded) (hs : config.shrinkFactor < 1)
    (hstuck : config.Stuck budget) : coordinator.budgetAfter budget = budget := by
  obtain ⟨hpos, -⟩ := BudgetConfig.bounds_of_valid hv
  obtain ⟨hmin, hmax⟩ := hb
  have hle : config.shrunk budget ≤ budget :=
    BudgetConfig.shrunk_le hv hs (by omega) (by omega)
  have hnot : ¬config.shrunk budget < budget := by
    rw [BudgetConfig.shrunk_lt_iff hv hs (by omega) (by omega)]
    exact not_not.mpr hstuck
  rw [h.budgetAfter_eq, hc, clamp]
  omega

theorem Degraded.budgetAfter_sub_le (h : coordinator.Degraded) (hs : config.shrinkFactor < 1)
    (hstuck : ¬config.Stuck budget) :
    coordinator.budgetAfter budget - config.min ≤ budget - config.min - 1 := by
  obtain ⟨hpos, -⟩ := BudgetConfig.bounds_of_valid hv
  obtain ⟨hmin, hmax⟩ := hb
  have hlt : config.shrunk budget < budget :=
    (BudgetConfig.shrunk_lt_iff hv hs (by omega) (by omega)).mpr hstuck
  rw [h.budgetAfter_eq, hc, clamp]
  omega

theorem Degraded.budgetAfter_lt_iff (h : coordinator.Degraded) (hs : config.shrinkFactor < 1)
    (hlt : config.min < budget) :
    coordinator.budgetAfter budget < budget ↔ ¬config.Stuck budget := by
  constructor
  · intro hless hstuck
    have hsame := h.budgetAfter_of_stuck hc hv hb hw hs hstuck
    omega
  · intro hstuck
    have hcloser := h.budgetAfter_sub_le hc hv hb hw hs hstuck
    omega

end Moves

section Sustained

variable {config : BudgetConfig} (hv : config.fault? = none) (hw : config.max < wordLimit)
variable {frames : List Coordinator} (hc : ∀ frame ∈ frames, frame.config.budget = config)
variable {budget : Nat} (hb : config.Admits budget)
include hv hw hc hb

-- Frame after frame, fast ones take a budget to the upper bound.
theorem foldl_budgetAfter_of_healthy (h : ∀ frame ∈ frames, frame.Healthy)
    (hf : 1 < config.growFactor) (hl : config.max - budget ≤ frames.length) :
    frames.foldl (fun budget frame => frame.budgetAfter budget) budget = config.max := by
  obtain ⟨hlast, hle⟩ := foldl_le_sub_length
    (fun budget frame => Coordinator.budgetAfter frame budget) config.Admits
    (fun budget => config.max - budget)
    (fun budget hb frame hm =>
      ⟨admits_budgetAfter (hc frame hm) hv hb,
        (h frame hm).sub_budgetAfter_le (hc frame hm) hv hb hw hf⟩) hb
  have hmost := hlast.le_max
  omega

-- Slow ones take it to the lower bound, or to a place where it is stuck.
theorem foldl_budgetAfter_of_degraded (h : ∀ frame ∈ frames, frame.Degraded)
    (hs : config.shrinkFactor < 1) (hl : budget - config.min ≤ frames.length) :
    let last := frames.foldl (fun budget frame => frame.budgetAfter budget) budget
    last = config.min ∨ config.Stuck last := by
  intro last
  obtain ⟨hlast, hle⟩ := foldl_le_sub_length
    (fun budget frame => Coordinator.budgetAfter frame budget) config.Admits
    (fun budget => if config.Stuck budget then 0 else budget - config.min)
    (fun budget hb frame hm => by
      refine ⟨admits_budgetAfter (hc frame hm) hv hb, ?_⟩
      by_cases hstuck : config.Stuck budget
      · have hsame := (h frame hm).budgetAfter_of_stuck (hc frame hm) hv hb hw hs hstuck
        rw [hsame, if_pos hstuck]
      · have hcloser := (h frame hm).budgetAfter_sub_le (hc frame hm) hv hb hw hs hstuck
        rw [if_neg hstuck]
        split <;> omega) hb
  by_cases hstuck : config.Stuck last
  · exact .inr hstuck
  · have hleast : config.min ≤ last := hlast.min_le
    rw [if_neg hstuck] at hle
    refine .inl ?_
    split at hle <;> omega

end Sustained

section Frames

variable {coordinator : Coordinator} (hv : coordinator.config.fault? = none)
variable (hb : coordinator.budget < wordLimit)
include hv hb

-- Of two frame rates, the higher one leads to no smaller budget.
theorem nextBudget_withFrames_le {frames other : Fifo Duration} (hn : frames.size = other.size)
    (h : (fpsOfMean (meanSeconds frames.toList)).AtMost (fpsOfMean (meanSeconds other.toList))) :
    (coordinator.withFrames frames).nextBudget ≤ (coordinator.withFrames other).nextBudget := by
  obtain ⟨target, hpos, hfinite, htarget⟩ := PipelineConfig.exists_rank_targetFps hv
  obtain ⟨-, -, -, hvalid, -⟩ := parts_of_valid hv
  by_cases hsampled : frames.size = 0
  · have hkept : (coordinator.withFrames frames).nextBudget = coordinator.budget := if_pos hsampled
    have hkept' : (coordinator.withFrames other).nextBudget = coordinator.budget :=
      if_pos (hn.symm.trans hsampled)
    rw [hkept, hkept']
  · have hratio := (h.div_right hfinite hpos).le
    rw [← htarget] at hratio
    have hmoved : (coordinator.withFrames frames).nextBudget = _ := if_neg hsampled
    have hmoved' : (coordinator.withFrames other).nextBudget = _ :=
      if_neg fun hzero => hsampled (hn.trans hzero)
    rw [hmoved, hmoved']
    exact clamp_mono (BudgetConfig.scaled_mono hvalid hb hratio)

-- Shorter frames lead to no smaller budget, as long as one of them takes any time. Frames that
-- take none have no rate, and no frames lead to a smaller budget than those.
theorem nextBudget_of_shorter_frames {fast slow : Fifo Duration}
    (hw : fast.size < wordLimit) (h : List.Forall₂ (· ≤ ·) fast.toList slow.toList) :
    ((∃ frame ∈ fast.toList, frame ≠ 0) →
      (coordinator.withFrames slow).nextBudget ≤ (coordinator.withFrames fast).nextBudget) ∧
    ((∀ frame ∈ fast.toList, frame = 0) →
      (coordinator.withFrames fast).nextBudget ≤ (coordinator.withFrames slow).nextBudget) := by
  have hlength := h.length_eq
  have hn : fast.size = slow.size := by
    rw [← Fifo.length_toList, hlength, Fifo.length_toList]
  rw [← Fifo.length_toList] at hw
  refine ⟨fun hpos => ?_, fun hzero => ?_⟩
  · exact nextBudget_withFrames_le hv hb hn.symm (fpsOfMean_atMost h hw hpos)
  · refine nextBudget_withFrames_le hv hb hn ?_
    rw [fpsOfMean_eq_zero hzero hw]
    exact zero_atMost_fpsOfMean (hlength ▸ hw)

end Frames

theorem nextBudget_of_shorter_frames_default :
    let coordinator := Coordinator.new {} 0
    let fast : Fifo Duration := .ofList [10000000, 0]
    let slow : Fifo Duration := .ofList [10000000, 100000000]
    coordinator.config.fault? = none ∧ coordinator.budget < wordLimit ∧ fast.size < wordLimit ∧
    List.Forall₂ (· ≤ ·) fast.toList slow.toList ∧ (∃ frame ∈ fast.toList, frame ≠ 0) ∧
    (coordinator.withFrames slow).nextBudget ≤ (coordinator.withFrames fast).nextBudget := by
  intro coordinator fast slow
  have hv : coordinator.config.fault? = none := rfl
  have hb : coordinator.budget < wordLimit := by decide
  have hw : fast.size < wordLimit := by decide
  have h : List.Forall₂ (· ≤ ·) fast.toList slow.toList := by
    simp [fast, slow]
  have hpos : ∃ frame ∈ fast.toList, frame ≠ 0 := ⟨10000000, by decide, by decide⟩
  exact ⟨hv, hb, hw, h, hpos, (nextBudget_of_shorter_frames hv hb hw h).1 hpos⟩

-- A frame that takes no time counts as too slow, and one that takes a nanosecond as fast enough.
theorem frame_of_no_time_shrinks :
    let coordinator := ((Coordinator.new {} 0).start.2.runFrame 0).2
    let fast : Fifo Duration := .ofList [0]
    let slow : Fifo Duration := .ofList [1]
    Coordinator.create {} 0 = .ok (.new {} 0) ∧ List.Forall₂ (· ≤ ·) fast.toList slow.toList ∧
    (coordinator.withFrames fast).nextBudget = 179 ∧
    (coordinator.withFrames slow).nextBudget = 308 ∧
    (coordinator.runFrame 0).2.budget = 179 ∧ (coordinator.runFrame 1).2.budget = 308 := by
  intro coordinator fast slow
  refine ⟨create_eq_ok_iff.mpr ⟨rfl, rfl⟩, ?_, ?_⟩
  · simp [fast, slow]
  · decide +kernel +revert

section Operations

variable (coordinator : Coordinator) (now : Instant)

theorem config_beginFrame : (coordinator.beginFrame now).config = coordinator.config :=
  congrArg Channel.config (coordinator.channel_beginFrame now)

-- Only the beginning of a frame changes the budget.
theorem budget_beginFrame :
    (coordinator.beginFrame now).budget =
      (coordinator.beginFrame now).budgetAfter coordinator.budget := rfl

theorem budget_ingest (message : Message) :
    (coordinator.ingest message).2.budget = coordinator.budget := by
  unfold ingest
  split <;> rfl

theorem budget_deliver (batches : List Batch) :
    (coordinator.deliver batches now).2.budget = coordinator.budget :=
  coordinator.deliver_keeps now Coordinator.budget (fun _ _ => rfl) batches

theorem budget_setRecorder (recorder : Recorder) :
    Coordinator.budget { coordinator with recorder := recorder } = coordinator.budget := rfl

theorem budget_record (event : Event) : (coordinator.record event).budget = coordinator.budget :=
  coordinator.budget_setRecorder _

theorem budget_flushFor (reason : FlushReason) :
    (coordinator.flushFor reason now).2.budget = coordinator.budget := by
  rw [flushFor_eq, budget_record, budget_deliver]
  rfl

theorem budget_start : coordinator.start.2.budget = coordinator.budget := by
  rw [start, request?_eq]
  cases coordinator.lifecycle <;> rfl

theorem budget_stop : (coordinator.stop now).2.budget = coordinator.budget := by
  by_cases hr : coordinator.lifecycle = .running
  · rw [coordinator.stop_of_running now hr]
    split
    · exact coordinator.halted.budget_flushFor now .stop
    · rfl
  · rw [coordinator.stop_of_not_running now hr]

theorem budget_observeOverload (snapshot : Snapshot) :
    (coordinator.observeOverload snapshot).budget = coordinator.budget := by
  obtain hcounted | ⟨since?, event, hrecorded⟩ := coordinator.observeOverload_cases snapshot
  · rw [hcounted]
  · rw [hrecorded, budget_record]

theorem budget_tune (snapshot : Snapshot) :
    (coordinator.tune snapshot now).2.budget = coordinator.budget := by
  obtain ⟨-, ht⟩ | ⟨recommendation, -, ⟨batcher, -, ht⟩ | ⟨overflow, -, ht⟩⟩ :=
    coordinator.tune_cases now snapshot
  · rw [ht]
  · rw [ht, budget_record]
    rfl
  · rw [ht]
    rfl

theorem budget_runFrame (h : coordinator.lifecycle = .running) :
    (coordinator.runFrame now).2.budget = (coordinator.beginFrame now).budget := by
  rw [coordinator.runFrame_snd now h, budget_tune, budget_observeOverload, afterDelivery,
    budget_deliver]
  rfl

end Operations

end Coordinator

end PacedFeed
