import PacedFeed.Proofs.Pipeline.Accounts
import PacedFeed.Proofs.Pipeline.Feed
import PacedFeed.Proofs.Pipeline.Log
import PacedFeed.Proofs.Telemetry.Tuner

-- Settings move only by recommendations that are applied, and those come no closer to each other
-- than the evaluation interval.

namespace PacedFeed

-- One report comes after another and at least some time later.
def Report.Apart (interval : Duration) (first second : Report) : Prop :=
  first.instant + (interval : Int) ≤ second.instant

def recommendations (reports : List Report) : List Report :=
  reports.filter (·.event.isRecommendation)

namespace Pipeline

-- Whether a step makes tuning evaluate anything.
def evaluates (state : Pipeline) (step : Step) : Bool :=
  state.isFrame step && state.observed.1.evaluates state.observed.2 state.now

-- What a step recommends, if it recommends anything.
def recommendation? (state : Pipeline) (step : Step) : Option Recommendation :=
  if state.isFrame step then state.observed.1.recommendation? state.observed.2 state.now else none

-- What a step recommends and applies.
def applied (state : Pipeline) (step : Step) : List Recommendation :=
  if state.coordinator.config.tuning.mode = .apply then (state.recommendation? step).toList else []

section Step

variable {state : Pipeline} {step : Step}

-- A look at the ring does not disturb what tuning goes by.
theorem status_observed (state : Pipeline) :
    state.observed.1.tick = state.coordinator.tick.next ∧
      state.observed.1.lastTuning = state.coordinator.lastTuning := by
  let delivered := state.coordinator.afterDelivery state.now
  have hdelivered := state.coordinator.status_afterDelivery state.now
  have hobserved := delivered.status_observeOverload (delivered.snapshot state.now)
  have htick := state.coordinator.tick_afterDelivery state.now
  have htuning : delivered.lastTuning = state.coordinator.lastTuning :=
    congrArg (fun status : Status => status.lastTuning) hdelivered
  have hsame : state.observed.1.tick = delivered.tick :=
    congrArg (fun status : Status => status.tick) hobserved
  have hlast : state.observed.1.lastTuning = delivered.lastTuning :=
    congrArg (fun status : Status => status.lastTuning) hobserved
  exact ⟨hsame.trans htick, hlast.trans htuning⟩

theorem mayTune_of_evaluates (h : state.evaluates step = true) :
    state.coordinator.mayTune state.now = true := by
  obtain ⟨-, he⟩ := Bool.and_eq_true_iff.mp h
  have hmay : state.observed.1.mayTune state.now = true := (Bool.and_eq_true_iff.mp he).2
  rw [Coordinator.mayTune, (status_observed state).2, config_observed] at hmay
  exact hmay

theorem mode_of_evaluates (h : state.evaluates step = true) :
    state.coordinator.config.tuning.mode ≠ .off := by
  obtain ⟨-, he⟩ := Bool.and_eq_true_iff.mp h
  obtain ⟨hmode, -⟩ := Bool.and_eq_true_iff.mp (Bool.and_eq_true_iff.mp he).1
  rw [config_observed] at hmode
  exact of_decide_eq_true hmode

-- Advice comes of an evaluation, and there is something to it.
theorem evaluates_of_recommendation? {recommendation : Recommendation}
    (h : state.recommendation? step = some recommendation) :
    state.evaluates step = true ∧ recommendation.isNoop = false := by
  obtain ⟨hf, hr⟩ := Option.ite_none_right_eq_some.mp h
  obtain ⟨ha, -⟩ := (Coordinator.recommendation?_eq_some_iff _ _).mp hr
  obtain ⟨he, hn⟩ := Coordinator.evaluates_of_advice? _ _ ha
  exact ⟨Bool.and_eq_true_iff.mpr ⟨hf, he⟩, hn⟩

theorem recommendation?_of_not_frame (h : state.isFrame step = false) :
    state.recommendation? step = none :=
  if_neg (Bool.eq_false_iff.mp h)

theorem lastTuning_step (state : Pipeline) (step : Step) :
    (state.step step).coordinator.lastTuning =
      if state.evaluates step then some state.now else state.coordinator.lastTuning := by
  by_cases hf : state.isFrame step = true
  · have hlast : (state.step step).coordinator.lastTuning = _ :=
      congrArg (fun status : Status => status.lastTuning) (status_of_isFrame hf)
    rw [hlast, evaluates, hf]
    rfl
  · have hsame : (state.step step).coordinator.lastTuning = state.coordinator.lastTuning :=
      congrArg Watch.lastTuning (watch_step (eq_false_of_ne_true hf))
    rw [hsame, evaluates, eq_false_of_ne_true hf]
    rfl

theorem recommendations_step (state : Pipeline) (step : Step) :
    recommendations (state.stamped step) =
      (state.recommendation? step).toList.map fun recommendation =>
        ⟨state.now, .tuningRecommended (state.step step).coordinator.tick recommendation
          (state.coordinator.config.tuning.mode = .apply)⟩ := by
  by_cases hf : state.isFrame step = true
  · have hreports := recommendations_of_isFrame hf
    rw [recommendations, stamped, List.filter_map]
    change ((state.reports step).filter PacedFeed.Event.isRecommendation).map _ = _
    rw [hreports, Coordinator.tuningReports, config_observed, (status_observed state).1,
      tick_of_isFrame hf, recommendation?, if_pos hf, List.map_map]
    rfl
  · have hnone := reports_of_not_frame (eq_false_of_ne_true hf)
    rw [recommendation?_of_not_frame (eq_false_of_ne_true hf), recommendations, stamped,
      List.filter_eq_nil_iff.mpr]
    · rfl
    · intro report hr
      obtain ⟨event, he, rfl⟩ := List.mem_map.mp hr
      exact Bool.eq_false_iff.mp (hnone event he).2

theorem mem_reports_of_recommendation? {recommendation : Recommendation}
    (h : state.recommendation? step = some recommendation) :
    .tuningRecommended (state.step step).coordinator.tick recommendation
      (state.coordinator.config.tuning.mode = .apply) ∈ state.reports step := by
  have hall := recommendations_step state step
  rw [h, Option.toList_some, List.map_singleton] at hall
  have hmem := List.mem_of_mem_filter (hall ▸ List.mem_singleton_self _)
  obtain ⟨event, he, heq⟩ := List.mem_map.mp hmem
  cases heq
  exact he

-- A recommendation is the last that its frame records.
theorem getLast?_reports_of_recommendation? {recommendation : Recommendation}
    (h : state.recommendation? step = some recommendation) :
    (state.reports step).getLast? =
      some (.tuningRecommended (state.step step).coordinator.tick recommendation
        (state.coordinator.config.tuning.mode = .apply)) := by
  obtain ⟨hf, hr⟩ := Option.ite_none_right_eq_some.mp h
  have htuning : state.observed.1.tuningReports state.observed.2 state.now =
      [.tuningRecommended (state.step step).coordinator.tick recommendation
        (state.coordinator.config.tuning.mode = .apply)] := by
    rw [Coordinator.tuningReports, hr, config_observed, (status_observed state).1,
      tick_of_isFrame hf]
    rfl
  rw [(step_of_isFrame hf).2, Coordinator.frameReports, Coordinator.observeReports,
    List.getLast?_append]
  exact congrArg (fun last : List PacedFeed.Event => last.getLast?.or _) htuning

theorem recommended_step (state : Pipeline) (step : Step) :
    ∀ report ∈ recommendations (state.stamped step),
      state.coordinator.config.tuning.mode ≠ .off ∧
      ∃ tick recommendation,
        report.event = .tuningRecommended tick recommendation
          (state.coordinator.config.tuning.mode = .apply) ∧
        recommendation.isNoop = false := by
  intro report hr
  rw [recommendations_step] at hr
  obtain ⟨recommendation, hm, rfl⟩ := List.mem_map.mp hr
  obtain ⟨he, hn⟩ := evaluates_of_recommendation? (Option.mem_toList.mp hm)
  exact ⟨mode_of_evaluates he, _, recommendation, rfl, hn⟩

theorem settings_outpour (coordinator : Coordinator) (count : Nat) (now : Instant) :
    ((coordinator.fed count).flush now).2.config = coordinator.batcher.config := by
  rw [Batcher.flush, Batcher.config_emitAll, Coordinator.fed, Batcher.config_foldl_receive]

theorem settings_of_not_frame (h : state.isFrame step = false) :
    (state.step step).coordinator.batcher.config = state.coordinator.batcher.config := by
  cases step with
  | ingest producer message => exact congrArg Batcher.config (batcher_ingest _ _)
  | ingestAll producer messages => exact congrArg Batcher.config (batcher_ingestAll _ _)
  | start => exact congrArg Batcher.config (batcher_start _)
  | stop =>
      rw [Pipeline.step, batcher_stop]
      split
      · exact settings_outpour _ _ _
      · rfl
  | tick => rw [step_tick h]
  | flush => rw [Pipeline.step, Coordinator.flush, batcher_flushFor, settings_outpour]
  | advance | scrollTo | scrollToBottom | setFollowTail => rfl

-- A frame applies what it is to apply, if it can.
theorem applied_of_isFrame (h : state.isFrame step = true) :
    state.applied step = (state.coordinator.adjustment? state.now).toList.filter fun recommendation =>
      (state.coordinator.config.tuning.apply recommendation
        (state.coordinator.afterDelivery state.now).batcher).isOk := by
  obtain ⟨-, hconfig, hbatcher⟩ := state.coordinator.observed_keeps state.now
  rw [applied, Coordinator.adjustment?, Coordinator.applied?, hconfig]
  by_cases hm : state.coordinator.config.tuning.mode = .apply
  · have hheed (recommendation : Recommendation) :
        state.observed.1.heed recommendation =
          state.coordinator.config.tuning.apply recommendation
            (state.coordinator.afterDelivery state.now).batcher := by
      rw [Coordinator.heed_eq, observed, hconfig, hbatcher, if_pos hm]
    rw [if_pos hm, if_pos hm, recommendation?, if_pos h, Coordinator.recommendation?,
      Option.toList_filter]
    simp only [hheed]
    rfl
  · rw [if_neg hm, if_neg hm, Option.toList_none, List.filter_nil]

-- The settings are those from before, or a recommendation was applied to them.
theorem settings_step (state : Pipeline) (step : Step) :
    (state.applied step = [] ∧
      (state.step step).coordinator.batcher.config = state.coordinator.batcher.config) ∨
    ∃ recommendation batcher, state.applied step = [recommendation] ∧
      batcher.config = state.coordinator.batcher.config ∧
      state.coordinator.config.tuning.apply recommendation batcher =
        .ok (state.step step).coordinator.batcher := by
  by_cases hf : state.isFrame step = true
  · let delivered := state.coordinator.afterDelivery state.now
    have hsame : delivered.batcher.config = state.coordinator.batcher.config :=
      settings_afterDelivery state.coordinator state.now
    have hbatcher : (state.step step).coordinator.batcher =
        (state.coordinator.adjustment? state.now).elim delivered.batcher fun recommendation =>
          state.coordinator.config.tuning.follow recommendation delivered.batcher := by
      rw [(step_of_isFrame hf).1]
      exact congrArg Channel.batcher
        (state.coordinator.channel_runFrame state.now (isFrame_iff.mp hf).2)
    have happlied := applied_of_isFrame hf
    cases ha : state.coordinator.adjustment? state.now with
    | none =>
        rw [ha, Option.elim_none] at hbatcher
        rw [ha] at happlied
        exact .inl ⟨happlied, hbatcher ▸ hsame⟩
    | some recommendation =>
        rw [ha, Option.elim_some] at hbatcher
        rw [ha, Option.toList_some] at happlied
        cases happly : state.coordinator.config.tuning.apply recommendation delivered.batcher with
        | error overflow =>
            rw [TuningConfig.follow_of_error happly] at hbatcher
            refine .inl ⟨happlied.trans (List.filter_cons_of_neg ?_), hbatcher ▸ hsame⟩
            rw [happly]
            exact Bool.false_ne_true
        | ok next =>
            rw [TuningConfig.follow_of_ok happly] at hbatcher
            refine .inr ⟨recommendation, delivered.batcher,
              happlied.trans (List.filter_cons_of_pos ?_), hsame, hbatcher ▸ happly⟩
            rw [happly]
            rfl
  · have hnone := recommendation?_of_not_frame (eq_false_of_ne_true hf)
    refine .inl ⟨?_, settings_of_not_frame (eq_false_of_ne_true hf)⟩
    rw [applied, hnone, Option.toList_none, ite_self]

theorem recommendation?_of_applied {recommendation : Recommendation}
    (h : state.applied step = [recommendation]) :
    state.coordinator.config.tuning.mode = .apply ∧
      state.recommendation? step = some recommendation := by
  unfold applied at h
  split at h
  · rename_i hm
    refine ⟨hm, Option.mem_toList.mp ?_⟩
    rw [h]
    exact List.mem_singleton_self _
  · cases h

end Step

-- Reports keep their distance, and none is newer than the last evaluation.
structure Throttled (interval : Duration) (last? : Option Instant) (now : Instant)
    (reports : List Report) : Prop where
  apart : reports.Pairwise (Report.Apart interval)
  instant_le : ∀ report ∈ reports, ∃ last, last? = some last ∧ report.instant ≤ last
  last_le : ∀ last, last? = some last → last ≤ now

section Throttled

variable {interval : Duration} {last? : Option Instant} {now : Instant} {reports : List Report}

theorem throttled_nil (interval : Duration) (now : Instant) : Throttled interval none now [] where
  apart := .nil
  instant_le := by simp
  last_le := by simp

theorem Throttled.later (h : Throttled interval last? now reports) {later : Instant}
    (hl : now ≤ later) : Throttled interval last? later reports :=
  { h with last_le := fun last hlast => Int.le_trans (h.last_le last hlast) hl }

-- An evaluation is long enough after everything that was recommended before.
theorem Throttled.add_le (h : Throttled interval last? now reports)
    (hd : ∀ last, last? = some last → interval ≤ now.since last) :
    ∀ report ∈ reports, report.instant + (interval : Int) ≤ now := by
  intro report hr
  obtain ⟨last, hlast, hle⟩ := h.instant_le report hr
  have hpast := h.last_le last hlast
  have helapsed := hd last hlast
  unfold Instant.since at helapsed
  unfold Instant Duration at *
  omega

theorem Throttled.evaluate (h : Throttled interval last? now reports) :
    Throttled interval (some now) now reports := by
  refine { h with instant_le := fun report hr => ⟨now, rfl, ?_⟩, last_le := ?_ }
  · obtain ⟨last, hlast, hle⟩ := h.instant_le report hr
    exact Int.le_trans hle (h.last_le last hlast)
  · rintro last ⟨⟩
    exact Int.le_refl _

theorem Throttled.concat (h : Throttled interval (some now) now reports)
    (hf : ∀ report ∈ reports, report.instant + (interval : Int) ≤ now)
    (event : PacedFeed.Event) :
    Throttled interval (some now) now (reports ++ [⟨now, event⟩]) := by
  refine { h with apart := ?_, instant_le := fun report hr => ⟨now, rfl, ?_⟩ }
  · refine List.pairwise_append.mpr ⟨h.apart, List.pairwise_singleton _ _, ?_⟩
    intro report hr last hl
    rw [List.mem_singleton.mp hl]
    exact hf report hr
  · rcases List.mem_append.mp hr with hr | hr
    · have hle := hf report hr
      have hnonneg := Int.natCast_nonneg interval
      unfold Instant Duration at *
      omega
    · obtain rfl := List.mem_singleton.mp hr
      exact Int.le_refl _

end Throttled

-- A step keeps the distance, whatever it recommends.
theorem Throttled.step {interval : Duration} {state : Pipeline} {reports : List Report}
    (h : Throttled interval state.coordinator.lastTuning state.now reports)
    (hi : interval = Duration.ofMillis state.coordinator.config.tuning.evaluationMillis)
    (step : Step) :
    Throttled interval (state.step step).coordinator.lastTuning (state.step step).now
      (reports ++ recommendations (state.stamped step)) := by
  refine Throttled.later ?_ (now_le_step state step)
  rw [recommendations_step, lastTuning_step]
  by_cases he : state.evaluates step = true
  · have hmay := mayTune_of_evaluates he
    have hfree := h.add_le fun last hlast => by
      rw [Coordinator.mayTune, hlast] at hmay
      exact hi ▸ of_decide_eq_true hmay
    rw [if_pos he]
    cases state.recommendation? step with
    | none =>
        rw [Option.toList_none, List.map_nil, List.append_nil]
        exact h.evaluate
    | some recommendation => exact h.evaluate.concat hfree _
  · have hnone : state.recommendation? step = none :=
      Option.eq_none_iff_forall_ne_some.mpr fun recommendation hr =>
        he (evaluates_of_recommendation? hr).1
    rw [if_neg he, hnone, Option.toList_none, List.map_nil, List.append_nil]
    exact h

section Run

variable {config : PipelineConfig} {start : Instant} {coordinator : Coordinator}

theorem throttled_run (hc : Coordinator.create config start = .ok coordinator)
    (steps : List Step) :
    let state := run ⟨coordinator, start⟩ steps
    Throttled (Duration.ofMillis config.tuning.evaluationMillis) state.coordinator.lastTuning
      state.now (recommendations (log ⟨coordinator, start⟩ steps)) := by
  induction steps using List.reverseRecOn with
  | nil =>
      obtain ⟨-, rfl⟩ := Coordinator.create_eq_ok_iff.mp hc
      exact throttled_nil _ _
  | append_singleton steps last ih =>
      have hconfig := config_run hc steps
      dsimp only
      rw [run_concat, log_concat, recommendations, List.filter_append]
      exact ih.step (by rw [hconfig]) last

-- Whatever was recommended is advice of the kind that is asked for, and there is something to it.
theorem recommended_run (hc : Coordinator.create config start = .ok coordinator)
    (steps : List Step) :
    ∀ report ∈ recommendations (log ⟨coordinator, start⟩ steps),
      config.tuning.mode ≠ .off ∧ ∃ tick recommendation,
        report.event = .tuningRecommended tick recommendation (config.tuning.mode = .apply) ∧
        recommendation.isNoop = false := by
  induction steps using List.reverseRecOn with
  | nil =>
      intro report hr
      cases hr
  | append_singleton steps last ih =>
      have hconfig := config_run hc steps
      rw [log_concat, recommendations, List.filter_append]
      intro report hr
      rcases List.mem_append.mp hr with hr | hr
      · exact ih report hr
      · have hlast := recommended_step (run ⟨coordinator, start⟩ steps) last report hr
        rwa [hconfig] at hlast

theorem dedup_step {state : Pipeline} (h : state.coordinator.batcher.config.dedup = true)
    (step : Step) : (state.step step).coordinator.batcher.config.dedup = true := by
  obtain ⟨-, hsame⟩ | ⟨recommendation, batcher, -, hb, hnext⟩ := settings_step state step
  · rwa [hsame]
  · rw [TuningConfig.eq_retune_of_apply hnext]
    exact batcher.dedup_retune (hb ▸ h) _ _ _

theorem dedup_run {state : Pipeline} (h : state.coordinator.batcher.config.dedup = true)
    (steps : List Step) : (state.run steps).coordinator.batcher.config.dedup = true := by
  induction steps using List.reverseRecOn with
  | nil => exact h
  | append_singleton steps last ih =>
      rw [run_concat]
      exact dedup_step ih last

-- Settings change in frames only, by recommendations that are applied, and the recorder has them
-- last then. Recommendations keep the distance that is asked for, and none is without content.
theorem tuning_throttled (hc : Coordinator.create config start = .ok coordinator)
    (steps : List Step) :
    let state := run ⟨coordinator, start⟩ steps
    let events := state.coordinator.recorder.events
    let recommended := recommendations (log ⟨coordinator, start⟩ steps)
    events = Recorder.newest (recorded ⟨coordinator, start⟩ steps) ∧
    (config.tuning.mode = .off →
      recommended = [] ∧ ∀ event ∈ events, event.isRecommendation = false) ∧
    recommended.Pairwise (Report.Apart (Duration.ofMillis config.tuning.evaluationMillis)) ∧
    (∀ report ∈ recommended, ∃ tick recommendation,
      report.event = .tuningRecommended tick recommendation (config.tuning.mode = .apply) ∧
      recommendation.isNoop = false) ∧
    (∀ step,
      let next := (state.step step).coordinator
      next.batcher.config ≠ state.coordinator.batcher.config →
        state.isFrame step = true ∧ config.tuning.mode = .apply ∧
        ∃ recommendation, next.recorder.events.getLast? =
          some (.tuningRecommended next.tick recommendation true)) ∧
    (state.coordinator.batcher.config.dedup = true →
      ∀ later, (state.run later).coordinator.batcher.config.dedup = true) := by
  intro state events recommended
  have hrecommended := recommended_run hc steps
  have hconfig : state.coordinator.config = config := config_run hc steps
  have hevents : events = Recorder.newest (recorded ⟨coordinator, start⟩ steps) :=
    events_created steps hc
  refine ⟨hevents, fun hoff => ?_, (throttled_run hc steps).apart,
    fun report hr => (hrecommended report hr).2, fun step hn => ?_,
    fun hd later => dedup_run hd later⟩
  · have hnone : recommended = [] := List.eq_nil_iff_forall_not_mem.mpr fun report hr =>
      (hrecommended report hr).1 hoff
    refine ⟨hnone, fun event he => ?_⟩
    rw [hevents] at he
    obtain ⟨report, hr, rfl⟩ := List.mem_map.mp ((Recorder.newest_suffix _).subset he)
    exact Bool.eq_false_iff.mpr (List.filter_eq_nil_iff.mp hnone report hr)
  · obtain ⟨-, hsame⟩ | ⟨recommendation, batcher, happlied, -, -⟩ := settings_step state step
    · exact absurd hsame hn
    · obtain ⟨hm, hr⟩ := recommendation?_of_applied happlied
      have hlast := getLast?_reports_of_recommendation? hr
      rw [decide_eq_true hm] at hlast
      refine ⟨(Option.ite_none_right_eq_some.mp hr).1, hconfig ▸ hm, recommendation, ?_⟩
      rw [recorder_step, Recorder.events_recordAll hevents]
      refine Recorder.getLast?_newest ?_
      rw [List.getLast?_append, hlast]
      rfl

end Run

theorem tuning_throttled_slow :
    let config : PipelineConfig := { tuning := { mode := .apply } }
    let steps : List Step := [.start, .tick, .advance 100000000]
    let state := run ⟨.new config 0, 0⟩ steps
    let next := (state.step .tick).coordinator
    Coordinator.create config 0 = .ok (.new config 0) ∧
    state.coordinator.batcher.config.dedup = true ∧
    next.batcher.config ≠ state.coordinator.batcher.config ∧
    ∃ recommendation, next.recorder.events.getLast? =
      some (.tuningRecommended next.tick recommendation true) := by
  intro config steps state next
  obtain ⟨hd, hn⟩ : state.coordinator.batcher.config.dedup = true ∧
      next.batcher.config ≠ state.coordinator.batcher.config := by
    decide +kernel +revert
  have hc : Coordinator.create config 0 = .ok (.new config 0) :=
    Coordinator.create_eq_ok_iff.mpr ⟨rfl, rfl⟩
  obtain ⟨-, -, -, -, hsettings, -⟩ := tuning_throttled hc steps
  exact ⟨hc, hd, hn, (hsettings .tick hn).2.2⟩

end Pipeline

end PacedFeed
