import PacedFeed.Proofs.Config.RoundTrip
import PacedFeed.Proofs.Pipeline.Throttle

-- How the settings move along a run, one recommendation after the other.

namespace PacedFeed

theorem TuningConfig.Usable.foldl_adjusted {config : TuningConfig} (hu : config.Usable)
    {settings : BatcherConfig} (hs : settings.Usable) (recommendations : List Recommendation) :
    (recommendations.foldl config.adjusted settings).Usable :=
  List.foldlRecOn recommendations _ hs fun _ h recommendation _ => hu.adjusted h recommendation

-- A valid configuration starts out with usable settings.
theorem PipelineConfig.usable_of_words {config : PipelineConfig} (hv : config.fault? = none)
    (hw : ∀ n ∈ config.counts, n < wordLimit) : config.tuning.Usable ∧ config.batcher.Usable := by
  obtain ⟨-, hbatcher, -, -, htuning⟩ := Coordinator.parts_of_valid hv
  obtain ⟨hinterval, hsize⟩ := BatcherConfig.pos_of_valid hbatcher
  simp only [counts, BatcherConfig.counts, TuningConfig.counts, List.forall_mem_append,
    List.forall_mem_cons] at hw
  obtain ⟨⟨⟨⟨-, hmillis, -⟩, -⟩, -⟩, -, -, hmost, -, hlongest, -⟩ := hw
  exact ⟨⟨htuning, hmost, hlongest⟩, hsize, hinterval, hmillis⟩

namespace Pipeline

-- All that was applied, in order.
def appliedAll (state : Pipeline) (steps : List Step) : List Recommendation :=
  trace step applied state steps

section Step

variable {state : Pipeline} {step : Step}

-- What is reported as applied was applied.
theorem applied_of_mem_reports {tick : Tick} {recommendation : Recommendation}
    (h : .tuningRecommended tick recommendation true ∈ state.reports step) :
    state.applied step = [recommendation] := by
  have hm : ⟨state.now, .tuningRecommended tick recommendation true⟩ ∈
      recommendations (state.stamped step) :=
    List.mem_filter.mpr ⟨List.mem_map_of_mem h, rfl⟩
  rw [recommendations_step] at hm
  obtain ⟨other, ho, heq⟩ := List.mem_map.mp hm
  obtain ⟨-, rfl, hmode⟩ : _ ∧ other = recommendation ∧ _ := by simpa using heq
  rw [applied, if_pos hmode, Option.mem_toList.mp ho, Option.toList_some]

theorem mem_reports_of_applied {recommendation : Recommendation}
    (h : state.applied step = [recommendation]) :
    .tuningRecommended (state.step step).coordinator.tick recommendation true ∈
      state.reports step := by
  obtain ⟨hmode, hr⟩ := recommendation?_of_applied h
  have hm := mem_reports_of_recommendation? hr
  rwa [decide_eq_true hmode] at hm

-- A frame that fails recommends nothing.
theorem recommendation?_of_error {overflow : Overflow}
    (h : (state.coordinator.runFrame state.now).1 = .error overflow) :
    state.recommendation? .tick = none := by
  obtain ⟨hr, recommendation, ha, happly⟩ := (Coordinator.runFrame_error_iff _ _).mp h
  have happlied := applied_of_isFrame (isFrame_iff.mpr ⟨rfl, hr⟩)
  rw [applied, if_pos (state.coordinator.mode_of_adjustment? state.now ha), ha, Option.toList_some,
    List.filter_cons_of_neg (by rw [happly]; exact Bool.false_ne_true)] at happlied
  exact Option.toList_eq_nil_iff.mp happlied

theorem settings_step_eq (hu : state.coordinator.config.tuning.Usable)
    (hs : state.coordinator.batcher.config.Usable) :
    (state.step step).coordinator.batcher.config =
      (state.applied step).foldl state.coordinator.config.tuning.adjusted
        state.coordinator.batcher.config := by
  obtain ⟨hnone, hsame⟩ | ⟨recommendation, batcher, hone, hbefore, happly⟩ :=
    settings_step state step
  · rw [hnone, hsame, List.foldl_nil]
  · rw [hone, hu.config_of_apply (hbefore ▸ hs) happly, hbefore, List.foldl_cons, List.foldl_nil]

end Step

section Run

variable {config : PipelineConfig} {start : Instant} {coordinator : Coordinator}
variable (hc : Coordinator.create config start = .ok coordinator)
variable (hw : ∀ n ∈ config.counts, n < wordLimit)
include hc hw

-- The settings are what the applied recommendations made of those that were configured.
theorem settings_run (steps : List Step) :
    (run ⟨coordinator, start⟩ steps).coordinator.batcher.config =
      (appliedAll ⟨coordinator, start⟩ steps).foldl config.tuning.adjusted config.batcher := by
  obtain ⟨hu, hs⟩ := PipelineConfig.usable_of_words (Coordinator.create_eq_ok_iff.mp hc).1 hw
  induction steps using List.reverseRecOn with
  | nil =>
      obtain ⟨-, rfl⟩ := Coordinator.create_eq_ok_iff.mp hc
      rfl
  | append_singleton steps last ih =>
      have hconfig := config_run hc steps
      have hbefore := hu.foldl_adjusted hs (appliedAll ⟨coordinator, start⟩ steps)
      rw [← ih] at hbefore
      rw [run_concat, settings_step_eq (hconfig ▸ hu) hbefore, hconfig, ih, appliedAll,
        appliedAll, trace_concat, List.foldl_append]
      rfl

theorem usable_run (steps : List Step) :
    (run ⟨coordinator, start⟩ steps).coordinator.batcher.config.Usable := by
  obtain ⟨hu, hs⟩ := PipelineConfig.usable_of_words (Coordinator.create_eq_ok_iff.mp hc).1 hw
  rw [settings_run hc hw]
  exact hu.foldl_adjusted hs _

-- The interval is no longer than the one that was configured and the longest one that is allowed.
theorem intervalMillis_run_le (steps : List Step) :
    (run ⟨coordinator, start⟩ steps).coordinator.batcher.config.intervalMillis ≤
      max config.batcher.intervalMillis config.tuning.maxIntervalMillis := by
  obtain ⟨hu, -⟩ := PipelineConfig.usable_of_words (Coordinator.create_eq_ok_iff.mp hc).1 hw
  rw [settings_run hc hw]
  refine List.foldlRecOn (motive := fun settings : BatcherConfig => settings.intervalMillis ≤ _)
    _ _ (Nat.le_max_left _ _) fun settings h recommendation _ => ?_
  obtain hkept | ⟨-, hhigh⟩ := TuningConfig.exactInterval_cases hu.valid settings.intervalMillis
    recommendation.batchInterval
  · exact Nat.le_trans (Nat.le_of_eq hkept) h
  · exact Nat.le_trans hhigh (Nat.le_max_right _ _)

theorem settings_of_mem_reports {steps : List Step} {step : Step} {tick : Tick}
    {recommendation : Recommendation}
    (hr : .tuningRecommended tick recommendation true ∈
      (run ⟨coordinator, start⟩ steps).reports step) :
    ((run ⟨coordinator, start⟩ steps).step step).coordinator.batcher.config =
      config.tuning.adjusted (run ⟨coordinator, start⟩ steps).coordinator.batcher.config
        recommendation := by
  obtain ⟨hu, -⟩ := PipelineConfig.usable_of_words (Coordinator.create_eq_ok_iff.mp hc).1 hw
  have hconfig := config_run hc steps
  rw [settings_step_eq (hconfig ▸ hu) (usable_run hc hw steps), applied_of_mem_reports hr, hconfig]
  rfl

-- What is said to be applied was computed exactly. A frame fails where the product is more than a
-- word holds, and then it changes no setting and recommends nothing. There is no such frame if
-- three times any interval is a word.
theorem tuning_exact (steps : List Step) :
    let state := run ⟨coordinator, start⟩ steps
    let before := state.coordinator.batcher.config
    let answer := (state.coordinator.runFrame state.now).1
    (∀ step tick recommendation,
      .tuningRecommended tick recommendation true ∈ state.reports step →
        let after := (state.step step).coordinator.batcher.config
        after.maxBatchSize =
          config.tuning.exactBatchSize before.maxBatchSize recommendation.batchSize ∧
        after.intervalMillis =
          config.tuning.exactInterval before.intervalMillis recommendation.batchInterval) ∧
    (∀ overflow, answer = .error overflow ↔
      state.isRunning = true ∧ ∃ recommendation,
        state.coordinator.adjustment? state.now = some recommendation ∧
        wordLimit ≤ recommendation.batchInterval.factor * before.intervalMillis ∧
        overflow = ⟨recommendation.batchInterval.factor * before.intervalMillis⟩) ∧
    (∀ overflow, answer = .error overflow →
      (state.step .tick).coordinator.batcher.config = before ∧
      ∀ event ∈ state.reports .tick, event.isRecommendation = false) ∧
    (3 * config.batcher.intervalMillis < wordLimit →
      3 * config.tuning.maxIntervalMillis < wordLimit →
      ∀ overflow, answer ≠ .error overflow) := by
  intro state before answer
  obtain ⟨hu, -⟩ := PipelineConfig.usable_of_words (Coordinator.create_eq_ok_iff.mp hc).1 hw
  refine ⟨fun step tick recommendation hr => ?_, fun overflow => runFrame_error_iff,
    fun overflow hfails => ?_, fun hconfigured hlongest overflow hfails => ?_⟩
  · have hafter : (state.step step).coordinator.batcher.config =
        config.tuning.adjusted before recommendation := settings_of_mem_reports hc hw hr
    rw [hafter]
    exact ⟨rfl, rfl⟩
  · have hnone : state.recommendation? .tick = none := recommendation?_of_error hfails
    constructor
    · obtain ⟨-, hsame⟩ | ⟨recommendation, batcher, hone, -, -⟩ := settings_step state .tick
      · exact hsame
      · cases hnone.symm.trans (recommendation?_of_applied hone).2
    · have hreports := recommendations_step state .tick
      rw [hnone] at hreports
      intro event he
      exact Bool.eq_false_iff.mpr (List.filter_eq_nil_iff.mp hreports _ (List.mem_map_of_mem he))
  · obtain ⟨-, recommendation, -, hle, -⟩ := runFrame_error_iff.mp hfails
    have hlimit : before.intervalMillis ≤ _ := intervalMillis_run_le hc hw steps
    have hproduct : wordLimit ≤ 3 * before.intervalMillis :=
      Nat.le_trans hle (Nat.mul_le_mul_right _ recommendation.batchInterval.factor_le)
    omega

end Run

theorem tuning_exact_slow :
    let config : PipelineConfig := { tuning := { mode := .apply } }
    let steps : List Step := [.start, .tick, .advance 100000000]
    let state := run ⟨.new config 0, 0⟩ steps
    let next := (state.step .tick).coordinator
    let recommendation : Recommendation := { batchSize := .shrink, batchInterval := .grow }
    Coordinator.create config 0 = .ok (.new config 0) ∧
    .tuningRecommended next.tick recommendation true ∈ state.reports .tick ∧
    next.batcher.config.maxBatchSize = 50 ∧ next.batcher.config.intervalMillis = 24 := by
  intro config steps state next recommendation
  obtain ⟨hr, hbefore, hshrunk, hgrown⟩ : state.applied .tick = [recommendation] ∧
      state.coordinator.batcher.config = config.batcher ∧
      config.tuning.exactBatchSize config.batcher.maxBatchSize .shrink = 50 ∧
      config.tuning.exactInterval config.batcher.intervalMillis .grow = 24 := by
    decide +kernel +revert
  have hm := mem_reports_of_applied hr
  have hc : Coordinator.create config 0 = .ok (.new config 0) :=
    Coordinator.create_eq_ok_iff.mpr ⟨rfl, rfl⟩
  obtain ⟨hsize, hinterval⟩ := (tuning_exact hc (by decide) steps).1 .tick _ _ hm
  -- written out, since the run is evaluated to compare the two otherwise
  have hnext : next = ((run ⟨.new config 0, 0⟩ steps).step .tick).coordinator := rfl
  rw [hbefore] at hsize hinterval
  rw [hnext]
  exact ⟨hc, hm, hsize.trans hshrunk, hinterval.trans hgrown⟩

-- Three times the interval is two more than a word holds, so the frame fails and the interval stays
-- as it is.
theorem interval_overflows :
    let config : PipelineConfig :=
      { batcher := { intervalMillis := 6148914691236517206 }, tuning := { mode := .apply } }
    let steps : List Step := [.start, .tick, .advance 100000000]
    let state := run ⟨.new config 0, 0⟩ steps
    let before := state.coordinator.batcher.config
    let next := (state.step .tick).coordinator
    Coordinator.create config 0 = .ok (.new config 0) ∧ (∀ n ∈ config.counts, n < wordLimit) ∧
    next.lastRecommendation = some { batchSize := .shrink, batchInterval := .grow } ∧
    (state.coordinator.runFrame state.now).1 = .error ⟨18446744073709551618⟩ ∧
    config.tuning.exactInterval before.intervalMillis .grow = 100 ∧
    next.batcher.config.intervalMillis = 6148914691236517206 := by
  intro config steps state before next
  have hrun : next.lastRecommendation = some { batchSize := .shrink, batchInterval := .grow } ∧
      (state.coordinator.runFrame state.now).1 = .error ⟨18446744073709551618⟩ ∧
      config.tuning.exactInterval before.intervalMillis .grow = 100 ∧
      next.batcher.config.intervalMillis = 6148914691236517206 := by
    decide +kernel +revert
  have hc : Coordinator.create config 0 = .ok (.new config 0) :=
    Coordinator.create_eq_ok_iff.mpr ⟨rfl, rfl⟩
  exact ⟨hc, by decide, hrun⟩

-- A setting moves the way that was recommended, unless it is already past the bound on that side.
-- Then it becomes that bound.
theorem tuning_follows {config : PipelineConfig} {start : Instant} {coordinator : Coordinator}
    (hc : Coordinator.create config start = .ok coordinator)
    (hw : ∀ n ∈ config.counts, n < wordLimit) {steps : List Step} {step : Step} {tick : Tick}
    {recommendation : Recommendation}
    (hr : .tuningRecommended tick recommendation true ∈
      (run ⟨coordinator, start⟩ steps).reports step) :
    let state := run ⟨coordinator, start⟩ steps
    let before := state.coordinator.batcher.config
    let after := (state.step step).coordinator.batcher.config
    recommendation.batchSize.Follows config.tuning.minBatchSize config.tuning.maxBatchSize
      before.maxBatchSize after.maxBatchSize ∧
    recommendation.batchInterval.Follows config.tuning.minIntervalMillis
      config.tuning.maxIntervalMillis before.intervalMillis after.intervalMillis := by
  intro state before after
  obtain ⟨hu, -⟩ := PipelineConfig.usable_of_words (Coordinator.create_eq_ok_iff.mp hc).1 hw
  have hafter : after = config.tuning.adjusted before recommendation :=
    settings_of_mem_reports hc hw hr
  rw [hafter]
  exact ⟨TuningConfig.follows_exactBatchSize hu.valid _ _,
    TuningConfig.follows_exactInterval hu.valid _ _⟩

theorem tuning_follows_slow :
    let config : PipelineConfig :=
      { batcher := { maxBatchSize := 3 }, tuning := { mode := .apply } }
    let steps : List Step := [.start, .tick, .advance 100000000]
    let state := run ⟨.new config 0, 0⟩ steps
    let next := (state.step .tick).coordinator
    let recommendation : Recommendation := { batchSize := .shrink, batchInterval := .grow }
    Coordinator.create config 0 = .ok (.new config 0) ∧
    .tuningRecommended next.tick recommendation true ∈ state.reports .tick ∧
    next.batcher.config.maxBatchSize = 10 ∧ 16 ≤ next.batcher.config.intervalMillis := by
  intro config steps state next recommendation
  obtain ⟨hr, hbefore⟩ : state.applied .tick = [recommendation] ∧
      state.coordinator.batcher.config = config.batcher := by
    decide +kernel +revert
  have hm := mem_reports_of_applied hr
  have hc : Coordinator.create config 0 = .ok (.new config 0) :=
    Coordinator.create_eq_ok_iff.mpr ⟨rfl, rfl⟩
  obtain ⟨⟨-, hsize⟩, hgrown, -⟩ := tuning_follows hc (by decide) hm
  have hnext : next = ((run ⟨.new config 0, 0⟩ steps).step .tick).coordinator := rfl
  rw [hbefore] at hsize hgrown
  rw [hnext]
  exact ⟨hc, hm, hsize (by decide), hgrown (by decide)⟩

-- An interval that is longer than the longest one allowed grows into a shorter one.
theorem interval_grows_shorter :
    let config : PipelineConfig :=
      { batcher := { intervalMillis := 200 }, tuning := { mode := .apply } }
    let steps : List Step := [.start, .tick, .advance 100000000]
    let state := run ⟨.new config 0, 0⟩ steps
    let next := (state.step .tick).coordinator
    let recommendation : Recommendation := { batchSize := .shrink, batchInterval := .grow }
    Coordinator.create config 0 = .ok (.new config 0) ∧
    .tuningRecommended next.tick recommendation true ∈ state.reports .tick ∧
    next.batcher.config.intervalMillis < state.coordinator.batcher.config.intervalMillis := by
  intro config steps state next recommendation
  obtain ⟨hr, hnext⟩ : state.applied .tick = [recommendation] ∧
      next.batcher.config.intervalMillis < state.coordinator.batcher.config.intervalMillis := by
    decide +kernel +revert
  have hc : Coordinator.create config 0 = .ok (.new config 0) :=
    Coordinator.create_eq_ok_iff.mpr ⟨rfl, rfl⟩
  exact ⟨hc, mem_reports_of_applied hr, hnext⟩

end Pipeline

end PacedFeed
