import PacedFeed.Proofs.Config.FrameTime
import PacedFeed.Proofs.Pipeline.Readings
import PacedFeed.Proofs.Session.Paced

-- One frame time for all: what validation lets through, what the monitor compares frames with and
-- what the cadence and the timers are set to.

namespace PacedFeed

namespace Timers

section Periods

variable {κ ω : Type} {period : Duration}
variable (call : Timer κ → Subscriptions → ω → Turn κ ω) (now : Instant)

-- A call changes when a timer is due and what it calls, and nothing else of it.
theorem period_of_runTimer (fuel : Nat) (timer : Timer κ) (subscriptions : Subscriptions)
    (world : ω) :
    ∀ kept ∈ (runTimer call now fuel timer subscriptions world).kept,
      kept.period = timer.period := by
  induction fuel generalizing timer subscriptions world with
  | zero => simp [runTimer]
  | succ fuel ih =>
      rw [runTimer]
      split
      · simp
      · split
        · simp
        · dsimp only
          split
          · simp
          · exact ih _ _ _

theorem period_of_runAll {timers : List (Timer κ)} (subscriptions : Subscriptions) (world : ω)
    (h : ∀ timer ∈ timers, timer.period = period) :
    ∀ kept ∈ (runAll call now timers subscriptions world).kept, kept.period = period := by
  induction timers generalizing subscriptions world with
  | nil => simp [runAll]
  | cons timer timers ih =>
      obtain ⟨hfirst, hrest⟩ := List.forall_mem_cons.mp h
      intro kept hk
      rw [runAll] at hk
      rcases List.mem_append.mp hk with hk | hk
      · exact (period_of_runTimer call now _ timer subscriptions world kept hk).trans hfirst
      · exact ih _ _ hrest kept hk

theorem period_of_advance {timers : Timers κ} (span : Duration) (world : ω)
    (h : ∀ timer ∈ timers.entries, timer.period = period) :
    ∀ timer ∈ (timers.advance call span world).2.1.entries, timer.period = period := by
  intro timer ht
  rw [advance, List.partition_eq_filter_filter] at ht
  rcases List.mem_append.mp ht with ht | ht
  · exact h timer (List.mem_filter.mp ht).1
  · refine period_of_runAll call _ _ _ (fun other ho => ?_) timer ht
    exact h other (List.mem_filter.mp (List.mem_mergeSort.mp ho)).1

theorem period_of_every {timers : Timers κ} (callback : κ)
    (h : ∀ timer ∈ timers.entries, timer.period = period) :
    ∀ timer ∈ (timers.every period callback).2.entries, timer.period = period := by
  intro timer ht
  rw [every, set] at ht
  split at ht
  · rcases List.mem_append.mp ht with ht | ht
    · exact h timer ht
    · rw [List.mem_singleton.mp ht]
  · exact h timer ht

-- Some time between calls is all that a timer needs to be set.
theorem exists_mem_every (timers : Timers κ) (callback : κ) (hpos : 0 < period) :
    let enrolled := timers.every period callback
    ∃ timer ∈ enrolled.2.entries, timer.id = enrolled.1 ∧ timer.period = period ∧
      enrolled.2.subscriptions.isLive timer.id = true := by
  intro enrolled
  have hset : enrolled.2 = { timers with
      entries := timers.entries ++
        [⟨enrolled.1, period, hpos, timers.now + period, callback⟩]
      subscriptions := timers.subscriptions.issue } := dif_pos hpos
  refine ⟨⟨enrolled.1, period, hpos, timers.now + period, callback⟩, ?_, rfl, rfl, ?_⟩
  · rw [hset]
    exact List.mem_append_right _ List.mem_cons_self
  · rw [hset]
    exact (Subscriptions.isLive_issue _ _).mpr (.inr rfl)

end Periods

end Timers

theorem Coordinator.config_start (coordinator : Coordinator) :
    coordinator.start.2.config = coordinator.config := by
  rw [← config_channel, channel_start, config_channel]

namespace Session

-- Whatever is to drive the frames does so at one pace.
structure Beats (session : Session) (period : Duration) : Prop where
  interval_eq : ∀ entry ∈ session.cadence.entries, entry.interval = period
  period_eq : ∀ timer ∈ session.timers.entries, timer.period = period

section Beats

variable {session : Session} {period : Duration} {past : List Starter} {lost : Bool}

theorem Beats.congr (h : Beats session period) {other : Session}
    (hcadence : other.cadence.entries = session.cadence.entries)
    (htimers : other.timers.entries = session.timers.entries) : Beats other period where
  interval_eq := hcadence ▸ h.interval_eq
  period_eq := htimers ▸ h.period_eq

theorem Beats.unpace (h : Beats session period) : Beats session.unpace period := by
  unfold Session.unpace
  split
  · exact h
  · exact h.congr rfl rfl
  · exact h.congr rfl rfl

theorem Beats.act (h : Beats session period) {α : Type}
    (f : Coordinator → Instant → α × Coordinator) : Beats (session.act f).2 period := by
  cases hr : session.released with
  | true =>
      rw [session.act_of_released _ hr]
      exact h
  | false =>
      rw [session.act_of_held _ hr]
      exact h.congr rfl rfl

theorem startOnCadence_eq {started : Session} (hs : session.start = (some true, started)) :
    let enrolled := started.cadence.every started.coordinator.config.targetFrameTime ()
    session.startOnCadence =
      (some true, { started with cadence := enrolled.2, pace := some (.fired enrolled.1) }) := by
  rw [startOnCadence, hs]

theorem startOnTimer_eq {started : Session} (hs : session.start = (some true, started)) :
    let enrolled := started.timers.every started.coordinator.config.targetFrameTime ()
    session.startOnTimer =
      (some true, { started with timers := enrolled.2, pace := some (.timed enrolled.1) }) := by
  rw [startOnTimer, hs]

theorem Beats.start (h : Beats session period)
    (hconfig : session.coordinator.config.targetFrameTime = period) (starter : Starter) :
    Beats (session.step starter.step) period := by
  rcases session.start_cases with ⟨hsame, -, hcadence, htimer⟩ | ⟨-, -, hs⟩
  · cases starter with
    | hand => rwa [Starter.step, Session.step, hsame]
    | cadence => rwa [Starter.step, Session.step, hcadence, hsame]
    | timers => rwa [Starter.step, Session.step, htimer, hsame]
  · rw [← session.coordinator.config_start] at hconfig
    cases starter with
    | hand =>
        rw [Starter.step, Session.step, hs]
        exact h.congr rfl rfl
    | cadence =>
        rw [Starter.step, Session.step, startOnCadence_eq hs, hconfig]
        refine ⟨fun entry hm => ?_, h.period_eq⟩
        rcases List.mem_append.mp hm with hm | hm
        · exact h.interval_eq entry hm
        · rw [List.mem_singleton.mp hm]
    | timers =>
        rw [Starter.step, Session.step, startOnTimer_eq hs, hconfig]
        exact ⟨h.interval_eq, Timers.period_of_every () h.period_eq⟩

theorem Beats.step (h : Beats session period)
    (hconfig : session.coordinator.config.targetFrameTime = period) (step : Step) :
    Beats (session.step step) period := by
  cases step with
  | start => exact h.start hconfig .hand
  | startOnCadence => exact h.start hconfig .cadence
  | startOnTimer => exact h.start hconfig .timers
  | stop =>
      by_cases hr : session.isRunning = true
      · rw [Session.step, session.stop_of_running hr]
        exact Beats.unpace (h.congr rfl rfl)
      · rwa [Session.step, session.stop_of_resting (Bool.eq_false_iff.mpr hr)]
  | tick => exact h.act Coordinator.runFrame
  | flush => exact h.act Coordinator.flush
  | fire =>
      exact ⟨fun entry hm => h.interval_eq entry (session.entries_fire_sublist.subset hm),
        h.period_eq⟩
  | advanceTimers span =>
      exact ⟨h.interval_eq, Timers.period_of_advance _ span _ h.period_eq⟩
  | release => exact h.unpace.congr rfl rfl
  | ingest | ingestAll | advance | scrollTo | scrollToBottom | setFollowTail =>
      exact h.congr rfl rfl
  | subscribe =>
      rw [Session.step, subscribe]
      split
      · exact h
      · exact h.congr rfl rfl
  | drain reader =>
      rw [Session.step, drain]
      split
      · exact h
      · exact h.congr rfl rfl

-- The interval of the cadence is the frame time whenever the cadence drives the frames.
theorem Beats.lastInterval_eq (h : Beats session period) (hp : Paced session past lost) :
    session.cadence.lastInterval? =
      if lost = false ∧ session.isRunning ∧ past.getLast? = some .cadence then some period
      else none := by
  have hlength := hp.length_live
  rw [rate] at hlength
  rw [Cadence.lastInterval?_eq]
  by_cases hc : lost = false ∧ session.isRunning = true ∧ past.getLast? = some .cadence
  · rw [if_pos hc] at hlength ⊢
    obtain ⟨entry, he⟩ := List.length_eq_one_iff.mp hlength
    have hm : entry ∈ session.cadence.entries.filter session.cadence.isLive := by
      rw [he]
      exact List.mem_singleton_self entry
    rw [he, List.getLast?_singleton, Option.map_some,
      h.interval_eq entry (List.mem_filter.mp hm).1]
  · rw [if_neg hc] at hlength ⊢
    rw [List.length_eq_zero_iff.mp hlength]
    rfl

theorem exists_timer_of_startOnTimer
    (hconfig : session.coordinator.config.targetFrameTime = period) (hpos : 0 < period)
    (hs : session.startOnTimer.1 = some true) :
    let started := session.step .startOnTimer
    ∃ timer ∈ started.timers.entries, started.pace = some (.timed timer.id) ∧
      started.timers.subscriptions.isLive timer.id = true ∧ timer.period = period := by
  rcases session.start_cases with ⟨-, hne, -, htimer⟩ | ⟨-, -, hstart⟩
  · rw [htimer] at hs
    exact absurd hs hne
  · rw [← session.coordinator.config_start] at hconfig
    rw [Session.step, startOnTimer_eq hstart, hconfig]
    obtain ⟨timer, hm, hid, hperiod, hlive⟩ := session.timers.exists_mem_every () hpos
    exact ⟨timer, hm, by rw [hid], hlive, hperiod⟩

end Beats

section Run

variable {config : PipelineConfig} {start : Instant} {coordinator : Coordinator}

theorem config_run (hc : Coordinator.create config start = .ok coordinator) (steps : List Step) :
    ((Session.new coordinator start).run steps).coordinator.config = config := by
  have hrun := congrArg Pipeline.coordinator ((Session.new coordinator start).pipeline_run steps)
  exact (congrArg Coordinator.config hrun).trans (Pipeline.config_run hc _)

theorem targetFrame_run (hc : Coordinator.create config start = .ok coordinator)
    (steps : List Step) :
    ((Session.new coordinator start).run steps).coordinator.monitor.targetFrame =
      config.targetFrameTime := by
  have hrun := congrArg Pipeline.coordinator ((Session.new coordinator start).pipeline_run steps)
  exact (congrArg (fun coordinator : Coordinator => coordinator.monitor.targetFrame) hrun).trans
    (Pipeline.targetFrame_run _ hc)

theorem beats_run (hc : Coordinator.create config start = .ok coordinator) (steps : List Step) :
    Beats ((Session.new coordinator start).run steps) config.targetFrameTime := by
  induction steps using List.reverseRecOn with
  | nil => exact ⟨List.forall_mem_nil _, List.forall_mem_nil _⟩
  | append_singleton steps last ih =>
      have hconfig := config_run hc steps
      rw [run, List.foldl_append]
      exact ih.step (by rw [← hconfig]) last

end Run

end Session

open Double in
-- Of settings that are valid otherwise, validation turns away those whose rate stands for no frame
-- time, which are those that get the default one: the reciprocal of the rate lasts too long, or not
-- even half a nanosecond, or is not a time at all. With any other rate everything goes by its
-- reciprocal, rounded to a double and then to nanoseconds.
theorem frame_time_agrees_with_validation {config : PipelineConfig} (h : config.fault? = none)
    (rate : Double) :
    let changed : PipelineConfig := { config with targetFps := rate }
    (changed.fault? = some (.invalidTargetFps rate) ↔ PipelineConfig.frameTime? rate = none) ∧
    (PipelineConfig.frameTime? rate = none ↔ ¬∃ period ≠ 0, (1 / rate).Lasts period) ∧
    (PipelineConfig.frameTime? rate = none →
      changed.targetFrameTime = Duration.ofMillis defaultFrameMillis) ∧
    ∀ period ≠ 0, (1 / rate).Lasts period →
      changed.fault? = none ∧ changed.targetFrameTime = period ∧
      0 < rate ∧ rate.isFinite = true ∧
      (∃ quotient, 1 / rate = ofRank false quotient ∧
        Rounds (rate.value⁻¹ * 2 ^ (1074 : Int)) quotient) ∧
      ∀ start, ∃ coordinator, Coordinator.create changed start = .ok coordinator ∧
        ∀ steps,
          let session := (Session.new coordinator start).run steps
          let starts := (Session.new coordinator start).starts steps
          let lost := (Session.new coordinator start).lost steps
          let started := session.step .startOnTimer
          session.coordinator.monitor.targetFrame = period ∧
          (∀ entry ∈ session.cadence.entries, entry.interval = period) ∧
          (∀ timer ∈ session.timers.entries, timer.period = period) ∧
          session.cadence.lastInterval? =
            (if lost = false ∧ session.isRunning ∧ starts.getLast? = some .cadence then some period
            else none) ∧
          (session.startOnTimer.1 = some true →
            ∃ timer ∈ started.timers.entries, started.pace = some (.timed timer.id) ∧
              started.timers.subscriptions.isLive timer.id = true ∧ timer.period = period) := by
  intro changed
  have hfault : changed.fault? = _ := PipelineConfig.fault?_withRate h rate
  refine ⟨?_, PipelineConfig.frameTime?_eq_none_iff,
    fun hnone => PipelineConfig.targetFrameTime_of_none hnone, fun period hne hlasts => ?_⟩
  · rw [hfault, Option.ite_none_right_eq_some]
    exact and_iff_left rfl
  · have hsome := PipelineConfig.frameTime?_eq_some_iff.mpr ⟨hne, hlasts⟩
    have htime : changed.targetFrameTime = period :=
      PipelineConfig.targetFrameTime_of_frameTime hsome
    have hvalid : changed.fault? = none := by
      rw [hfault, hsome]
      rfl
    obtain ⟨hpos, hfinite, hrounds⟩ := reciprocal_of_lasts hlasts hne
    refine ⟨hvalid, htime, hpos, hfinite, hrounds, fun start => ?_⟩
    have hc : Coordinator.create changed start = .ok (.new changed start) :=
      Coordinator.create_eq_ok_iff.mpr ⟨hvalid, rfl⟩
    refine ⟨_, hc, fun steps => ?_⟩
    have hpaced := Session.paced_run (.new changed start) start steps
    have hbeats := Session.beats_run hc steps
    have htarget := Session.targetFrame_run hc steps
    have hconfig := Session.config_run hc steps
    rw [htime] at hbeats htarget
    exact ⟨htarget, hbeats.interval_eq, hbeats.period_eq,
      hbeats.lastInterval_eq hpaced,
      Session.exists_timer_of_startOnTimer (by rw [hconfig, htime]) (Nat.pos_of_ne_zero hne)⟩

-- A rate that comes out between two nanoseconds, one that leaves less than half a nanosecond for a
-- frame, and one whose reciprocal is a negative zero.
theorem frame_time_agrees_with_validation_fast :
    let config : PipelineConfig := {}
    let changed (rate : Double) : PipelineConfig := { config with targetFps := rate }
    let session := (Session.new (.new (changed 144) 0) 0).run
      [.startOnCadence, .advance 6944444, .fire]
    config.fault? = none ∧
    ((changed 144).fault? = none ∧ (changed 144).targetFrameTime = 6944444 ∧
      session.coordinator.monitor.targetFrame = 6944444 ∧
      session.cadence.lastInterval? = some 6944444) ∧
    ((changed 2500000000).fault? = some (.invalidTargetFps 2500000000) ∧
      (changed 2500000000).targetFrameTime = Duration.ofMillis defaultFrameMillis) ∧
    (changed (.infinite true)).fault? = some (.invalidTargetFps (.infinite true)) := by
  intro config changed session
  have hvalid : config.fault? = none := by decide +kernel
  have hlasts : (1 / 144 : Double).Lasts 6944444 :=
    Double.toDuration?_eq_some_iff.mp (by decide +kernel)
  obtain ⟨-, -, -, hfast⟩ := frame_time_agrees_with_validation hvalid 144
  obtain ⟨hfault, htime, -, -, -, hcreated⟩ := hfast 6944444 (by decide) hlasts
  obtain ⟨coordinator, hc, hrun⟩ := hcreated 0
  obtain ⟨-, rfl⟩ := Coordinator.create_eq_ok_iff.mp hc
  obtain ⟨htarget, -, -, hinterval, -⟩ := hrun [.startOnCadence, .advance 6944444, .fire]
  obtain ⟨htiny, -, hdefault, -⟩ := frame_time_agrees_with_validation hvalid 2500000000
  obtain ⟨hinfinite, -, -, -⟩ := frame_time_agrees_with_validation hvalid (.infinite true)
  have hnone : PipelineConfig.frameTime? 2500000000 = none := by decide +kernel
  refine ⟨hvalid, ⟨hfault, htime, htarget, hinterval.trans (if_pos ?_)⟩,
    ⟨htiny.mpr hnone, hdefault hnone⟩, hinfinite.mpr (by decide +kernel)⟩
  decide +kernel

end PacedFeed
