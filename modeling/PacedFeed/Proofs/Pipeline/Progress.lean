import PacedFeed.Proofs.Pipeline.Tuned

-- Recommendations that keep saying the same take a setting to the bound.

namespace PacedFeed

namespace TuningConfig

-- The batcher after it followed recommendations, one after the other.
def applyAll (config : TuningConfig) (recommendations : List Recommendation) (batcher : Batcher) :
    Except Overflow Batcher :=
  recommendations.foldlM (fun batcher recommendation => config.apply recommendation batcher) batcher

theorem applyAll_cons (config : TuningConfig) (recommendation : Recommendation)
    (recommendations : List Recommendation) (batcher : Batcher) :
    config.applyAll (recommendation :: recommendations) batcher =
      (config.apply recommendation batcher).bind (config.applyAll recommendations) :=
  List.foldlM_cons

theorem applyAll_concat (config : TuningConfig) (recommendations : List Recommendation)
    (last : Recommendation) (batcher : Batcher) :
    config.applyAll (recommendations ++ [last]) batcher =
      (config.applyAll recommendations batcher).bind (config.apply last) := by
  rw [applyAll, List.foldlM_append, ← applyAll]
  cases config.applyAll recommendations batcher with
  | error overflow => rfl
  | ok next => exact bind_pure (config.apply last next)

-- Settings inside the bounds.
structure Admits (config : TuningConfig) (settings : BatcherConfig) : Prop where
  minBatchSize_le : config.minBatchSize ≤ settings.maxBatchSize
  le_maxBatchSize : settings.maxBatchSize ≤ config.maxBatchSize
  minIntervalMillis_le : config.minIntervalMillis ≤ settings.intervalMillis
  le_maxIntervalMillis : settings.intervalMillis ≤ config.maxIntervalMillis

theorem Usable.config_of_applyAll {config : TuningConfig} (hu : config.Usable)
    {recommendations : List Recommendation} {batcher last : Batcher} (hs : batcher.config.Usable)
    (h : config.applyAll recommendations batcher = .ok last) :
    last.config = recommendations.foldl config.adjusted batcher.config := by
  induction recommendations generalizing batcher with
  | nil =>
      obtain rfl := Except.ok.inj h
      rfl
  | cons recommendation recommendations ih =>
      rw [applyAll_cons] at h
      cases happly : config.apply recommendation batcher with
      | error overflow =>
          rw [happly] at h
          cases h
      | ok next =>
          rw [happly] at h
          have hnext := hu.config_of_apply hs happly
          rw [ih (hnext ▸ hu.adjusted hs recommendation) h, hnext, List.foldl_cons]

section Step

variable {config : TuningConfig} (hu : config.Usable)
variable {settings : BatcherConfig} (h : config.Admits settings)
include hu h

theorem Admits.usable : settings.Usable := by
  obtain ⟨⟨hleast, -⟩, hshortest, -⟩ := bounds_of_valid hu.valid
  exact ⟨Nat.lt_of_lt_of_le hleast h.minBatchSize_le,
    Nat.lt_of_lt_of_le hshortest h.minIntervalMillis_le,
    Nat.lt_of_le_of_lt h.le_maxIntervalMillis hu.maxIntervalMillis_lt⟩

theorem Admits.adjusted (recommendation : Recommendation) :
    config.Admits (config.adjusted settings recommendation) := by
  have hsize := exactBatchSize_cases hu.valid settings.maxBatchSize recommendation.batchSize
  have hinterval :=
    exactInterval_cases hu.valid settings.intervalMillis recommendation.batchInterval
  obtain ⟨hleast, hmost, hshortest, hlongest⟩ := h
  constructor <;> dsimp only [TuningConfig.adjusted] <;> omega

-- Doubling and halving come closer to the bound unless it is reached. So do three halves and two
-- thirds, but three halves of one are one.
theorem Admits.size_grown {recommendation : Recommendation}
    (hr : recommendation.batchSize = .grow) :
    config.maxBatchSize - (config.adjusted settings recommendation).maxBatchSize ≤
      config.maxBatchSize - settings.maxBatchSize - 1 := by
  have hpos := (h.usable hu).maxBatchSize_pos
  dsimp only [TuningConfig.adjusted]
  rw [hr, exactBatchSize]
  exact Adjustment.sub_bounded_grow (by omega)

theorem Admits.size_shrunk {recommendation : Recommendation}
    (hr : recommendation.batchSize = .shrink) :
    (config.adjusted settings recommendation).maxBatchSize - config.minBatchSize ≤
      settings.maxBatchSize - config.minBatchSize - 1 := by
  have hpos := (h.usable hu).maxBatchSize_pos
  dsimp only [TuningConfig.adjusted]
  rw [hr, exactBatchSize]
  exact Adjustment.bounded_shrink_sub (by omega)

theorem Admits.interval_grown {recommendation : Recommendation}
    (hr : recommendation.batchInterval = .grow) (hone : settings.intervalMillis ≠ 1) :
    config.maxIntervalMillis - (config.adjusted settings recommendation).intervalMillis ≤
      config.maxIntervalMillis - settings.intervalMillis - 1 := by
  have hpos := (h.usable hu).intervalMillis_pos
  dsimp only [TuningConfig.adjusted]
  rw [hr, exactInterval]
  exact Adjustment.sub_bounded_grow (by omega)

theorem Admits.interval_shrunk {recommendation : Recommendation}
    (hr : recommendation.batchInterval = .shrink) :
    (config.adjusted settings recommendation).intervalMillis - config.minIntervalMillis ≤
      settings.intervalMillis - config.minIntervalMillis - 1 := by
  have hpos := (h.usable hu).intervalMillis_pos
  dsimp only [TuningConfig.adjusted]
  rw [hr, exactInterval]
  exact Adjustment.bounded_shrink_sub (by omega)

omit h in
theorem Admits.interval_le (hs : config.Admits settings) {recommendation : Recommendation}
    (hr : recommendation.batchInterval ≠ .grow) :
    (config.adjusted settings recommendation).intervalMillis ≤ settings.intervalMillis := by
  have hfollows :=
    follows_exactInterval hu.valid settings.intervalMillis recommendation.batchInterval
  dsimp only [TuningConfig.adjusted]
  cases hinterval : recommendation.batchInterval with
  | keep =>
      rw [hinterval] at hfollows
      exact Nat.le_of_eq hfollows
  | grow => exact absurd hinterval hr
  | shrink =>
      rw [hinterval] at hfollows
      exact hfollows.1 hs.minIntervalMillis_le

omit hu in
theorem Admits.interval_of_one {recommendation : Recommendation}
    (hr : recommendation.batchInterval = .grow) (hone : settings.intervalMillis = 1) :
    (config.adjusted settings recommendation).intervalMillis = 1 := by
  have hshortest := h.minIntervalMillis_le
  have hlongest := h.le_maxIntervalMillis
  dsimp only [TuningConfig.adjusted]
  rw [hr, hone, exactInterval, Adjustment.bounded, clamp]
  omega

-- Every setting moves unless it is at the bound, but for an interval of one that is to grow.
theorem Admits.moves (recommendation : Recommendation) :
    let after := config.adjusted settings recommendation
    (recommendation.batchSize = .grow → settings.maxBatchSize < config.maxBatchSize →
      settings.maxBatchSize < after.maxBatchSize) ∧
    (recommendation.batchSize = .shrink → config.minBatchSize < settings.maxBatchSize →
      after.maxBatchSize < settings.maxBatchSize) ∧
    (recommendation.batchInterval = .grow →
      settings.intervalMillis < config.maxIntervalMillis →
      (settings.intervalMillis < after.intervalMillis ↔ settings.intervalMillis ≠ 1)) ∧
    (recommendation.batchInterval = .shrink →
      config.minIntervalMillis < settings.intervalMillis →
      after.intervalMillis < settings.intervalMillis) := by
  dsimp only
  refine ⟨fun hr hlt => ?_, fun hr hlt => ?_, fun hr hlt => ?_, fun hr hlt => ?_⟩
  · have hcloser := h.size_grown hu hr
    omega
  · have hcloser := h.size_shrunk hu hr
    omega
  · refine ⟨fun hgrown hone => ?_, fun hone => ?_⟩
    · have hstays := h.interval_of_one hr hone
      omega
    · have hcloser := h.interval_grown hu hr hone
      omega
  · have hcloser := h.interval_shrunk hu hr
    omega

end Step

section Reach

variable {config : TuningConfig} (hu : config.Usable)
variable {settings : BatcherConfig} (h : config.Admits settings)
variable {recommendations : List Recommendation}
include hu

section Bounds

include h

theorem Admits.reaches_maxBatchSize
    (hr : ∀ recommendation ∈ recommendations, recommendation.batchSize = .grow)
    (hl : config.maxBatchSize - settings.maxBatchSize ≤ recommendations.length) :
    (recommendations.foldl config.adjusted settings).maxBatchSize = config.maxBatchSize := by
  obtain ⟨hlast, hle⟩ := foldl_le_sub_length config.adjusted config.Admits
    (fun settings => config.maxBatchSize - settings.maxBatchSize)
    (fun _ hs recommendation hm =>
      ⟨hs.adjusted hu recommendation, hs.size_grown hu (hr recommendation hm)⟩) h
  have hmost := hlast.le_maxBatchSize
  omega

theorem Admits.reaches_minBatchSize
    (hr : ∀ recommendation ∈ recommendations, recommendation.batchSize = .shrink)
    (hl : settings.maxBatchSize - config.minBatchSize ≤ recommendations.length) :
    (recommendations.foldl config.adjusted settings).maxBatchSize = config.minBatchSize := by
  obtain ⟨hlast, hle⟩ := foldl_le_sub_length config.adjusted config.Admits
    (fun settings => settings.maxBatchSize - config.minBatchSize)
    (fun _ hs recommendation hm =>
      ⟨hs.adjusted hu recommendation, hs.size_shrunk hu (hr recommendation hm)⟩) h
  have hleast := hlast.minBatchSize_le
  omega

-- An interval that grows away from one does not come back to it.
theorem Admits.reaches_maxIntervalMillis
    (hr : ∀ recommendation ∈ recommendations, recommendation.batchInterval = .grow)
    (hone : settings.intervalMillis ≠ 1)
    (hl : config.maxIntervalMillis - settings.intervalMillis ≤ recommendations.length) :
    (recommendations.foldl config.adjusted settings).intervalMillis =
      config.maxIntervalMillis := by
  obtain ⟨⟨hlast, -⟩, hle⟩ := foldl_le_sub_length config.adjusted
    (fun settings => config.Admits settings ∧ settings.intervalMillis ≠ 1)
    (fun settings => config.maxIntervalMillis - settings.intervalMillis)
    (fun settings hs recommendation hm => by
      obtain ⟨hadmits, hone⟩ := hs
      have hbefore := hadmits.le_maxIntervalMillis
      have hnext := hadmits.adjusted hu recommendation
      have hafter := hnext.le_maxIntervalMillis
      have hpos := (hadmits.usable hu).intervalMillis_pos
      have hcloser := hadmits.interval_grown hu (hr recommendation hm) hone
      exact ⟨⟨hnext, by omega⟩, hcloser⟩) ⟨h, hone⟩
  have hlongest := hlast.le_maxIntervalMillis
  omega

theorem Admits.reaches_minIntervalMillis
    (hr : ∀ recommendation ∈ recommendations, recommendation.batchInterval = .shrink)
    (hl : settings.intervalMillis - config.minIntervalMillis ≤ recommendations.length) :
    (recommendations.foldl config.adjusted settings).intervalMillis =
      config.minIntervalMillis := by
  obtain ⟨hlast, hle⟩ := foldl_le_sub_length config.adjusted config.Admits
    (fun settings => settings.intervalMillis - config.minIntervalMillis)
    (fun _ hs recommendation hm =>
      ⟨hs.adjusted hu recommendation, hs.interval_shrunk hu (hr recommendation hm)⟩) h
  have hshortest := hlast.minIntervalMillis_le
  omega

end Bounds

-- Intervals that stay below a bound can be adjusted as long as the products of the bound are words.
theorem Admits.exists_applyAll {batcher : Batcher} {bound : Nat}
    (ha : config.Admits batcher.config) (hb : batcher.config.intervalMillis ≤ bound)
    (hk : ∀ settings, config.Admits settings → settings.intervalMillis ≤ bound →
      ∀ recommendation ∈ recommendations,
        (config.adjusted settings recommendation).intervalMillis ≤ bound)
    (hw : ∀ recommendation ∈ recommendations,
      recommendation.batchInterval.factor * bound < wordLimit) :
    ∃ last, config.applyAll recommendations batcher = .ok last := by
  induction recommendations generalizing batcher with
  | nil => exact ⟨batcher, rfl⟩
  | cons recommendation recommendations ih =>
      have hproduct := Nat.mul_le_mul_left recommendation.batchInterval.factor hb
      obtain ⟨next, happly⟩ := (exists_apply_iff config recommendation batcher).mpr
        (Nat.lt_of_le_of_lt hproduct (hw recommendation List.mem_cons_self))
      have hnext := hu.config_of_apply (ha.usable hu) happly
      rw [applyAll_cons, happly]
      refine ih (hnext ▸ ha.adjusted hu recommendation)
        (hnext ▸ hk batcher.config ha hb recommendation List.mem_cons_self) ?_ ?_
      · exact fun settings hs hle other hm => hk settings hs hle other (List.mem_cons_of_mem _ hm)
      · exact fun other hm => hw other (List.mem_cons_of_mem _ hm)

end Reach

end TuningConfig

namespace Pipeline

-- Along a run, a batcher follows what was applied.
theorem applyAll_run {config : PipelineConfig} {start : Instant} {coordinator : Coordinator}
    (hc : Coordinator.create config start = .ok coordinator)
    (hw : ∀ n ∈ config.counts, n < wordLimit) (steps : List Step) :
    ∃ last, config.tuning.applyAll (appliedAll ⟨coordinator, start⟩ steps) coordinator.batcher =
        .ok last ∧
      last.config = (run ⟨coordinator, start⟩ steps).coordinator.batcher.config := by
  obtain ⟨hu, -⟩ := PipelineConfig.usable_of_words (Coordinator.create_eq_ok_iff.mp hc).1 hw
  induction steps using List.reverseRecOn with
  | nil => exact ⟨coordinator.batcher, rfl, rfl⟩
  | append_singleton steps step ih =>
      obtain ⟨last, hlast, hsettings⟩ := ih
      have hconfig := config_run hc steps
      have husable := usable_run hc hw steps
      rw [run_concat, appliedAll, trace_concat, ← appliedAll]
      obtain ⟨hnone, hsame⟩ | ⟨recommendation, batcher, hone, hbefore, happly⟩ :=
        settings_step (run ⟨coordinator, start⟩ steps) step
      · refine ⟨last, ?_, hsettings.trans hsame.symm⟩
        exact (congrArg (config.tuning.applyAll · _)
          ((congrArg _ hnone).trans (List.append_nil _))).trans hlast
      · rw [hconfig] at happly
        have hlt := (TuningConfig.exists_apply_iff _ _ _).mp ⟨_, happly⟩
        rw [hbefore, ← hsettings] at hlt
        obtain ⟨next, hnext⟩ := (TuningConfig.exists_apply_iff _ _ last).mpr hlt
        refine ⟨next, ?_, ?_⟩
        · refine (congrArg (config.tuning.applyAll · _) (congrArg _ hone)).trans ?_
          rw [TuningConfig.applyAll_concat]
          exact (congrArg (Except.bind · _) hlast).trans hnext
        · rw [hu.config_of_apply (hsettings ▸ husable) hnext,
            hu.config_of_apply (hbefore ▸ husable) happly, hsettings, hbefore]

-- Growing and shrinking move a setting inside the bounds until it is at the bound, and enough of it
-- takes it there. Only an interval of one does not grow. All of it takes products that are words.
theorem tuning_progresses {config : PipelineConfig} {start : Instant} {coordinator : Coordinator}
    (hc : Coordinator.create config start = .ok coordinator)
    (hw : ∀ n ∈ config.counts, n < wordLimit) :
    let tuning := config.tuning
    (∀ steps, ∃ last, tuning.applyAll (appliedAll ⟨coordinator, start⟩ steps) coordinator.batcher =
        .ok last ∧
      last.config = (run ⟨coordinator, start⟩ steps).coordinator.batcher.config) ∧
    ∀ batcher : Batcher, tuning.Admits batcher.config →
      let size := batcher.config.maxBatchSize
      let millis := batcher.config.intervalMillis
      (∀ recommendation : Recommendation,
        ((∃ next, tuning.apply recommendation batcher = .ok next) ↔
          recommendation.batchInterval.factor * millis < wordLimit) ∧
        ∀ next, tuning.apply recommendation batcher = .ok next →
          let after := next.config
          (recommendation.batchSize = .grow → size < tuning.maxBatchSize →
            size < after.maxBatchSize) ∧
          (recommendation.batchSize = .shrink → tuning.minBatchSize < size →
            after.maxBatchSize < size) ∧
          (recommendation.batchInterval = .grow → millis < tuning.maxIntervalMillis →
            (millis < after.intervalMillis ↔ millis ≠ 1)) ∧
          (recommendation.batchInterval = .shrink → tuning.minIntervalMillis < millis →
            after.intervalMillis < millis)) ∧
      ∀ recommendations : List Recommendation,
        ((∀ recommendation ∈ recommendations,
            recommendation.batchInterval.factor * tuning.maxIntervalMillis < wordLimit) ∨
          ((∀ recommendation ∈ recommendations, recommendation.batchInterval ≠ .grow) ∧
            2 * millis < wordLimit) →
          ∃ last, tuning.applyAll recommendations batcher = .ok last) ∧
        ∀ last, tuning.applyAll recommendations batcher = .ok last →
          let after := last.config
          ((∀ recommendation ∈ recommendations, recommendation.batchSize = .grow) →
            tuning.maxBatchSize - size ≤ recommendations.length →
              after.maxBatchSize = tuning.maxBatchSize) ∧
          ((∀ recommendation ∈ recommendations, recommendation.batchSize = .shrink) →
            size - tuning.minBatchSize ≤ recommendations.length →
              after.maxBatchSize = tuning.minBatchSize) ∧
          ((∀ recommendation ∈ recommendations, recommendation.batchInterval = .grow) →
            millis ≠ 1 → tuning.maxIntervalMillis - millis ≤ recommendations.length →
              after.intervalMillis = tuning.maxIntervalMillis) ∧
          ((∀ recommendation ∈ recommendations, recommendation.batchInterval = .shrink) →
            millis - tuning.minIntervalMillis ≤ recommendations.length →
              after.intervalMillis = tuning.minIntervalMillis) := by
  intro tuning
  obtain ⟨hu, -⟩ := PipelineConfig.usable_of_words (Coordinator.create_eq_ok_iff.mp hc).1 hw
  refine ⟨applyAll_run hc hw, fun batcher h => ?_⟩
  intro size millis
  have hbatcher := h.usable hu
  refine ⟨fun recommendation => ⟨TuningConfig.exists_apply_iff _ _ _, fun next hnext => ?_⟩,
    fun recommendations => ⟨?_, fun last hlast => ?_⟩⟩
  · rw [hu.config_of_apply hbatcher hnext]
    exact h.moves hu recommendation
  · rintro (hwords | ⟨hfew, hword⟩)
    · exact TuningConfig.Admits.exists_applyAll hu h h.le_maxIntervalMillis
        (fun _ hs _ recommendation _ => (hs.adjusted hu recommendation).le_maxIntervalMillis) hwords
    · refine TuningConfig.Admits.exists_applyAll hu h (Nat.le_refl millis) ?_ ?_
      · exact fun settings hs hle recommendation hm =>
          Nat.le_trans (hs.interval_le hu (hfew recommendation hm)) hle
      · intro recommendation hm
        have hfactor := Adjustment.factor_le_of_ne_grow (hfew recommendation hm)
        exact Nat.lt_of_le_of_lt (Nat.mul_le_mul_right millis hfactor) hword
  · rw [hu.config_of_applyAll hbatcher hlast]
    exact ⟨h.reaches_maxBatchSize hu, h.reaches_minBatchSize hu, h.reaches_maxIntervalMillis hu,
      h.reaches_minIntervalMillis hu⟩

theorem tuning_progresses_slow :
    let config : PipelineConfig := { tuning := { mode := .apply } }
    let recommendation : Recommendation := { batchSize := .shrink, batchInterval := .grow }
    let batcher := (Coordinator.new config 0).batcher
    Coordinator.create config 0 = .ok (.new config 0) ∧ config.tuning.Admits batcher.config ∧
    ∃ last, config.tuning.applyAll (List.replicate 90 recommendation) batcher = .ok last ∧
      last.config.maxBatchSize = 10 ∧ last.config.intervalMillis = 100 := by
  intro config recommendation batcher
  have hc : Coordinator.create config 0 = .ok (.new config 0) :=
    Coordinator.create_eq_ok_iff.mpr ⟨rfl, rfl⟩
  have hadmits : config.tuning.Admits batcher.config :=
    ⟨by decide, by decide, by decide, by decide⟩
  have hsame : ∀ other ∈ List.replicate 90 recommendation, other = recommendation :=
    fun _ => List.eq_of_mem_replicate
  obtain ⟨-, hprogress⟩ := tuning_progresses hc (by decide)
  obtain ⟨happlied, hreached⟩ := (hprogress batcher hadmits).2 (List.replicate 90 recommendation)
  obtain ⟨last, hlast⟩ := happlied (.inl fun other hm => by rw [hsame other hm]; decide)
  obtain ⟨-, hshrunk, hgrown, -⟩ := hreached last hlast
  exact ⟨hc, hadmits, last, hlast, hshrunk (fun other hm => hsame other hm ▸ rfl) (by decide),
    hgrown (fun other hm => hsame other hm ▸ rfl) (by decide) (by decide)⟩

-- An interval of one is told to grow, and that is said to be applied, but it stays.
theorem interval_of_one_stays :
    let config : PipelineConfig :=
      { batcher := { intervalMillis := 1 }, tuning := { mode := .apply, minIntervalMillis := 1 } }
    let steps : List Step := [.start, .tick, .advance 100000000]
    let state := run ⟨.new config 0, 0⟩ steps
    let before := state.coordinator.batcher.config
    let next := (state.step .tick).coordinator
    let recommendation : Recommendation := { batchSize := .shrink, batchInterval := .grow }
    Coordinator.create config 0 = .ok (.new config 0) ∧ config.tuning.Admits before ∧
    .tuningRecommended next.tick recommendation true ∈ state.reports .tick ∧
    before.intervalMillis < config.tuning.maxIntervalMillis ∧
    next.batcher.config.intervalMillis = before.intervalMillis := by
  intro config steps state before next recommendation
  obtain ⟨hr, hbefore, hnext⟩ : state.applied .tick = [recommendation] ∧
      before = config.batcher ∧ next.batcher.config.intervalMillis = 1 := by
    decide +kernel +revert
  have hc : Coordinator.create config 0 = .ok (.new config 0) :=
    Coordinator.create_eq_ok_iff.mpr ⟨rfl, rfl⟩
  rw [hbefore]
  exact ⟨hc, ⟨by decide, by decide, by decide, by decide⟩, mem_reports_of_applied hr, by decide,
    hnext⟩

end Pipeline

end PacedFeed
