import PacedFeed.Proofs.Coordinator.Reports
import PacedFeed.Proofs.Pipeline.Run

-- What is recorded along a run, and which steps of it are frames.

namespace PacedFeed

-- An event with the time on the clock when it was recorded.
structure Report where
  instant : Instant
  event : Event

namespace Pipeline

-- A tick is a frame if it finds the coordinator running. Any other one does nothing.
def isFrame (state : Pipeline) : Step → Bool
  | .tick => state.isRunning
  | _ => false

def reports (state : Pipeline) : Step → List PacedFeed.Event
  | .start => state.coordinator.requestReports .start
  | .stop => state.coordinator.stopReports state.now
  | .tick => if state.isRunning then state.coordinator.frameReports state.now else []
  | .flush => state.coordinator.flushReports .explicit state.now
  | _ => []

def stamped (state : Pipeline) (step : Step) : List Report :=
  (state.reports step).map (Report.mk state.now)

-- Everything that was handed to the recorder, in order.
def log (state : Pipeline) (steps : List Step) : List Report :=
  trace step stamped state steps

def recorded (state : Pipeline) (steps : List Step) : List PacedFeed.Event :=
  (state.log steps).map Report.event

-- The coordinator in a frame when tuning takes a look, with what it looks at.
def observed (state : Pipeline) : Coordinator × Snapshot :=
  let delivered := state.coordinator.afterDelivery state.now
  (delivered.observeOverload (delivered.snapshot state.now), delivered.snapshot state.now)

def frameTime (state : Pipeline) (step : Step) : List Instant :=
  if state.isFrame step then [state.now] else []

-- The instants at which frames ran.
def frameTimes (state : Pipeline) (steps : List Step) : List Instant :=
  trace step frameTime state steps

section Step

variable {state : Pipeline} {step : Step}

theorem isFrame_iff :
    state.isFrame step = true ↔ step = .tick ∧ state.coordinator.lifecycle = .running := by
  cases step <;> simp [isFrame, isRunning]

theorem step_of_isFrame (h : state.isFrame step = true) :
    (state.step step).coordinator = (state.coordinator.runFrame state.now).2 ∧
      state.reports step = state.coordinator.frameReports state.now := by
  obtain ⟨rfl, hr⟩ := isFrame_iff.mp h
  exact ⟨rfl, if_pos h⟩

theorem status_of_isFrame (h : state.isFrame step = true) :
    let coordinator := state.coordinator
    let delivered := coordinator.afterDelivery state.now
    let snapshot := delivered.snapshot state.now
    (state.step step).coordinator.status =
      { coordinator.status with
        tick := coordinator.tick.next
        frames := (coordinator.monitor.recordTick state.now).2.frames
        lastTick := some state.now
        lastDropped := coordinator.ring.dropped
        overloadSince := delivered.overloadAfter snapshot
        lastTuning :=
          if (delivered.observeOverload snapshot).evaluates snapshot state.now then some state.now
          else coordinator.lastTuning
        recorder := coordinator.recorder.recordAll (coordinator.frameReports state.now) } := by
  rw [(step_of_isFrame h).1]
  exact state.coordinator.status_runFrame state.now (isFrame_iff.mp h).2

-- Any other tick does nothing.
theorem step_tick (h : state.isFrame .tick = false) : state.step .tick = state := by
  rw [step, Coordinator.runFrame_of_not_running _ _ (of_decide_eq_false h)]

theorem reports_tick (h : state.isFrame .tick = false) : state.reports .tick = [] :=
  if_neg (Bool.eq_false_iff.mp h)

theorem status_ingestAll (coordinator : Coordinator) (messages : List Message) :
    (coordinator.ingestAll messages).2.status = coordinator.status :=
  ingestAll_keeps Coordinator.status Coordinator.status_ingest coordinator messages

-- Between frames, nothing changes of what only frames change.
theorem watch_step (h : state.isFrame step = false) :
    (state.step step).coordinator.status.toWatch = state.coordinator.status.toWatch := by
  cases step with
  | ingest producer message => exact congrArg Status.toWatch (Coordinator.status_ingest _ _)
  | ingestAll producer messages => exact congrArg Status.toWatch (status_ingestAll _ _)
  | start =>
      rw [Pipeline.step, Coordinator.status_start]
      split <;> rfl
  | stop =>
      rw [Pipeline.step, Coordinator.status_stop]
      split <;> rfl
  | tick => rw [step_tick h]
  | flush => rw [Pipeline.step, Coordinator.flush, Coordinator.status_flushFor]
  | advance | scrollTo | scrollToBottom | setFollowTail => rfl

-- What is called recorded is what the recorder gets.
theorem recorder_step (state : Pipeline) (step : Step) :
    (state.step step).coordinator.recorder =
      state.coordinator.recorder.recordAll (state.reports step) := by
  cases step with
  | ingest producer message => exact congrArg Status.recorder (Coordinator.status_ingest _ _)
  | ingestAll producer messages => exact congrArg Status.recorder (status_ingestAll _ _)
  | start =>
      have hstart := congrArg Status.recorder state.coordinator.status_start
      by_cases hr : state.coordinator.lifecycle = .running
      · rw [if_pos hr] at hstart
        rw [reports, Coordinator.requestReports,
          (Lifecycle.transition_start_eq_none_iff _).mpr hr]
        exact hstart
      · rw [if_neg hr] at hstart
        exact hstart
  | stop =>
      have hstop := congrArg Status.recorder (state.coordinator.status_stop state.now)
      by_cases hr : state.coordinator.lifecycle = .running
      · rw [if_pos hr] at hstop
        exact hstop
      · rw [if_neg hr] at hstop
        rw [reports, Coordinator.stopReports, Coordinator.requestReports,
          (Lifecycle.transition_stop_eq_none_iff _).mpr hr, if_neg fun h => hr h.1]
        exact hstop
  | tick =>
      by_cases hf : state.isFrame .tick = true
      · have hframe := congrArg Status.recorder (status_of_isFrame hf)
        rw [(step_of_isFrame hf).2]
        exact hframe
      · rw [step_tick (eq_false_of_ne_true hf), reports_tick (eq_false_of_ne_true hf)]
        rfl
  | flush =>
      have hflush := congrArg Status.recorder
        (state.coordinator.status_flushFor state.now .explicit)
      exact hflush
  | advance | scrollTo | scrollToBottom | setFollowTail => rfl

-- Overloads and recommendations are matters of frames.
theorem reports_of_not_frame (h : state.isFrame step = false) :
    ∀ event ∈ state.reports step, event.isOverload = false ∧ event.isRecommendation = false := by
  have hrequest (request : LifecycleRequest) :
      ∀ event ∈ state.coordinator.requestReports request,
        event.isOverload = false ∧ event.isRecommendation = false := by
    intro event he
    obtain ⟨next, -, rfl⟩ := Option.map_eq_some_iff.mp (Option.mem_toList.mp he)
    exact ⟨rfl, rfl⟩
  have hflush (reason : FlushReason) :
      ∀ event ∈ state.coordinator.flushReports reason state.now,
        event.isOverload = false ∧ event.isRecommendation = false := by
    intro event he
    rw [List.mem_singleton.mp he]
    exact ⟨rfl, rfl⟩
  cases step with
  | start => exact hrequest .start
  | stop =>
      intro event he
      rcases List.mem_append.mp he with he | he
      · exact hrequest .stop event he
      · split at he
        · exact hflush .stop event he
        · cases he
  | tick =>
      rw [reports_tick h]
      intro event he
      cases he
  | flush => exact hflush .explicit
  | ingest | ingestAll | advance | scrollTo | scrollToBottom | setFollowTail =>
      intro event he
      cases he

theorem recommendations_of_isFrame (h : state.isFrame step = true) :
    (state.reports step).filter PacedFeed.Event.isRecommendation =
      state.observed.1.tuningReports state.observed.2 state.now := by
  rw [(step_of_isFrame h).2, Coordinator.frameReports,
    Coordinator.filter_isRecommendation_observeReports]
  rfl

theorem config_observed (state : Pipeline) :
    state.observed.1.config = state.coordinator.config :=
  (state.coordinator.observed_keeps state.now).2.1

-- Nothing is recommended unless that is asked for.
theorem reports_of_off (h : state.coordinator.config.tuning.mode = .off) :
    ∀ event ∈ state.reports step, event.isRecommendation = false := by
  by_cases hf : state.isFrame step = true
  · have hnone := recommendations_of_isFrame hf
    rw [Coordinator.tuningReports_of_off _ _ _ (by rwa [config_observed])] at hnone
    exact fun event he => Bool.eq_false_iff.mpr (List.filter_eq_nil_iff.mp hnone event he)
  · exact fun event he => (reports_of_not_frame (eq_false_of_ne_true hf) event he).2

theorem tick_of_isFrame (h : state.isFrame step = true) :
    (state.step step).coordinator.tick = state.coordinator.tick.next := by
  have hframe := status_of_isFrame h
  exact congrArg (fun status : Status => status.tick) hframe

theorem tick_step (state : Pipeline) (step : Step) :
    (state.step step).coordinator.tick.frame =
      state.coordinator.tick.frame + (state.frameTime step).length := by
  by_cases hf : state.isFrame step = true
  · rw [tick_of_isFrame hf, frameTime, if_pos hf]
    rfl
  · have hsame := congrArg Watch.tick (watch_step (eq_false_of_ne_true hf))
    rw [frameTime, if_neg hf]
    exact congrArg Tick.frame hsame

theorem now_le_step (state : Pipeline) (step : Step) :
    state.now ≤ (state.step step).now := by
  cases step with
  | advance span => exact Int.le_add_of_nonneg_right (Int.natCast_nonneg span)
  | _ => exact Int.le_refl _

end Step

section Run

variable (state : Pipeline) (steps : List Step)

theorem log_concat (last : Step) :
    state.log (steps ++ [last]) = state.log steps ++ (state.run steps).stamped last :=
  trace_concat _ _ _ _ _

theorem recorded_concat (last : Step) :
    state.recorded (steps ++ [last]) = state.recorded steps ++ (state.run steps).reports last := by
  rw [recorded, log, trace_concat, List.map_append, stamped, List.map_map]
  exact congrArg (state.recorded steps ++ ·) (List.map_id _)

theorem frameTimes_concat (last : Step) :
    state.frameTimes (steps ++ [last]) =
      state.frameTimes steps ++ (state.run steps).frameTime last :=
  trace_concat _ _ _ _ _

theorem recorder_run :
    (state.run steps).coordinator.recorder =
      state.coordinator.recorder.recordAll (state.recorded steps) := by
  induction steps using List.reverseRecOn with
  | nil => rfl
  | append_singleton steps last ih =>
      rw [run_concat, recorder_step, ih, recorded_concat, Recorder.recordAll_append]

theorem recorder_created {config : PipelineConfig} {start : Instant} {coordinator : Coordinator}
    (hc : Coordinator.create config start = .ok coordinator) :
    (run ⟨coordinator, start⟩ steps).coordinator.recorder =
      Recorder.empty.recordAll (recorded ⟨coordinator, start⟩ steps) := by
  obtain ⟨-, rfl⟩ := Coordinator.create_eq_ok_iff.mp hc
  exact recorder_run _ steps

theorem events_created {config : PipelineConfig} {start : Instant} {coordinator : Coordinator}
    (hc : Coordinator.create config start = .ok coordinator) :
    (run ⟨coordinator, start⟩ steps).coordinator.recorder.events =
      Recorder.newest (recorded ⟨coordinator, start⟩ steps) := by
  rw [recorder_created steps hc, Recorder.events_empty_recordAll]

-- The tick counts the frames.
theorem tick_run :
    (state.run steps).coordinator.tick.frame =
      state.coordinator.tick.frame + (state.frameTimes steps).length := by
  induction steps using List.reverseRecOn with
  | nil => rfl
  | append_singleton steps last ih =>
      rw [run_concat, tick_step, ih, frameTimes_concat, List.length_append, Nat.add_assoc]

end Run

end Pipeline

end PacedFeed
