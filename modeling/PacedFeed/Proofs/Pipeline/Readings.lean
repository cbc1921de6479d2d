import PacedFeed.Proofs.Telemetry.Samples

-- What a coordinator tells its monitor: when frames begin, when it is paused, and how old what it
-- delivers is.

namespace PacedFeed

-- Without a reset all latencies count.
theorem FrameMonitor.latencies_recorded (monitor : FrameMonitor) {steps : List Step}
    (h : .reset ∉ steps) : (monitor.recorded steps).latencies = steps.flatMap latencyOf := by
  induction steps using List.reverseRecOn with
  | nil => rfl
  | append_singleton steps last ih =>
      rw [List.mem_append, List.mem_singleton, not_or] at h
      rw [recorded_concat, follow, if_neg (Ne.symm h.2), ih h.1, List.flatMap_append,
        List.flatMap_singleton]

namespace Coordinator

def delays (batches : List Batch) (now : Instant) : List FrameMonitor.Step :=
  batches.map fun batch => .latency (latency batch now)

section Monitor

variable (coordinator : Coordinator) (now : Instant)

theorem monitor_ingest (message : Message) :
    (coordinator.ingest message).2.monitor = coordinator.monitor := by
  unfold ingest
  split <;> rfl

-- Stated for any recorder, so that nothing runs the log against its limit to check it.
theorem monitor_setRecorder (recorder : Recorder) :
    Coordinator.monitor { coordinator with recorder := recorder } = coordinator.monitor := rfl

theorem monitor_record (event : Event) : (coordinator.record event).monitor = coordinator.monitor :=
  coordinator.monitor_setRecorder _

theorem monitor_deliver (batches : List Batch) :
    (coordinator.deliver batches now).2.monitor = coordinator.monitor.run (delays batches now) := by
  rw [deliver_eq]
  induction batches generalizing coordinator with
  | nil => rfl
  | cons batch batches ih => exact ih (coordinator.deliverBatch now batch)

theorem monitor_flushFor (reason : FlushReason) :
    (coordinator.flushFor reason now).2.monitor =
      coordinator.monitor.run (delays (coordinator.collectAll now).1.toList now) := by
  rw [flushFor_eq, monitor_record, monitor_deliver]
  rfl

theorem monitor_start :
    coordinator.start.2.monitor =
      if coordinator.lifecycle = .running then coordinator.monitor
      else coordinator.monitor.pause := by
  rw [start, request?_eq]
  cases coordinator.lifecycle <;> rfl

theorem monitor_stop :
    (coordinator.stop now).2.monitor =
      if coordinator.lifecycle = .running then
        coordinator.monitor.pause.run
          (delays (if coordinator.config.flushOnStop then (coordinator.collectAll now).1.toList
            else []) now)
      else coordinator.monitor := by
  by_cases hr : coordinator.lifecycle = .running
  · rw [if_pos hr, coordinator.stop_of_running now hr]
    by_cases hf : coordinator.config.flushOnStop = true
    · rw [if_pos hf, if_pos hf]
      exact coordinator.halted.monitor_flushFor now .stop
    · rw [if_neg hf, if_neg hf]
      rfl
  · rw [if_neg hr, coordinator.stop_of_not_running now hr]

theorem monitor_afterDelivery :
    (coordinator.afterDelivery now).monitor =
      (coordinator.monitor.recordTick now).2.run
        (delays ((coordinator.beginFrame now).collectDue now).1.2 now) := by
  rw [afterDelivery, monitor_deliver]
  rfl

theorem monitor_observeOverload (snapshot : Snapshot) :
    (coordinator.observeOverload snapshot).monitor = coordinator.monitor := by
  obtain hcounted | ⟨since?, event, hrecorded⟩ := coordinator.observeOverload_cases snapshot
  · rw [hcounted]
  · rw [hrecorded, monitor_record]

theorem monitor_tune (snapshot : Snapshot) :
    (coordinator.tune snapshot now).2.monitor = coordinator.monitor := by
  obtain ⟨-, ht⟩ | ⟨recommendation, -, ⟨batcher, -, ht⟩ | ⟨overflow, -, ht⟩⟩ :=
    coordinator.tune_cases now snapshot
  · rw [ht]
  · rw [ht, monitor_record]
    rfl
  · rw [ht]
    rfl

theorem monitor_runFrame (h : coordinator.lifecycle = .running) :
    (coordinator.runFrame now).2.monitor =
      (coordinator.monitor.recordTick now).2.run
        (delays ((coordinator.beginFrame now).collectDue now).1.2 now) := by
  rw [coordinator.runFrame_snd now h, monitor_tune, monitor_observeOverload, monitor_afterDelivery]

end Monitor

end Coordinator

namespace Pipeline

-- What a step tells of frames and pauses.
def marks (state : Pipeline) : Step → List FrameMonitor.Step
  | .start => if state.isRunning then [] else [.pause]
  | .stop => if state.isRunning then [.pause] else []
  | .tick => if state.isRunning then [.tick state.now] else []
  | _ => []

def readings (state : Pipeline) (step : Step) : List FrameMonitor.Step :=
  state.marks step ++ Coordinator.delays (deliveries (state.happen step)) state.now

def allReadings (state : Pipeline) (steps : List Step) : List FrameMonitor.Step :=
  trace step readings state steps

section Step

variable (state : Pipeline) (step : Step)

-- The monitor inside runs on what it is told.
theorem monitor_step :
    (state.step step).coordinator.monitor = state.coordinator.monitor.run (state.readings step) := by
  cases step with
  | ingest producer message =>
      rw [readings, happen, deliveries_submitAll]
      exact state.coordinator.monitor_ingest message
  | ingestAll producer messages =>
      rw [readings, happen, deliveries_submitAll]
      exact ingestAll_keeps Coordinator.monitor Coordinator.monitor_ingest state.coordinator messages
  | start =>
      rw [Pipeline.step, Coordinator.monitor_start, readings, marks, isRunning]
      by_cases hr : state.coordinator.lifecycle = .running
      · simp only [hr, decide_true, if_true]
        rfl
      · simp only [hr, decide_false, if_false]
        rfl
  | stop =>
      rw [Pipeline.step, Coordinator.monitor_stop, readings, marks, happen, isRunning]
      by_cases hr : state.coordinator.lifecycle = .running
      · by_cases hf : state.coordinator.config.flushOnStop = true
        · simp only [hr, hf, decide_true, Bool.and_self, if_true, outpour, deliveries_collecting]
          rfl
        · simp only [hr, hf, decide_true, Bool.and_false, if_true]
          rfl
      · simp only [hr, decide_false, if_false, Bool.false_and]
        rfl
  | tick =>
      rw [readings, marks, happen]
      by_cases hr : state.isRunning = true
      · simp only [hr, if_true, frame, deliveries_collecting]
        exact state.coordinator.monitor_runFrame state.now (of_decide_eq_true hr)
      · rw [step_tick (eq_false_of_ne_true hr), if_neg hr, if_neg hr]
        rfl
  | flush =>
      rw [readings, happen, outpour, deliveries_collecting]
      exact state.coordinator.monitor_flushFor state.now .explicit
  | advance | scrollTo | scrollToBottom | setFollowTail => rfl

-- Nobody resets it.
theorem reset_not_mem_readings : .reset ∉ state.readings step := by
  rw [readings, List.mem_append, not_or]
  constructor
  · unfold marks
    split
    · split <;> simp
    · split <;> simp
    · split <;> simp
    · simp
  · simp [Coordinator.delays]

end Step

section Run

variable (state : Pipeline) (steps : List Step)

theorem monitor_run :
    (state.run steps).coordinator.monitor =
      state.coordinator.monitor.run (state.allReadings steps) :=
  view_foldl FrameMonitor.step step readings (fun state => state.coordinator.monitor) monitor_step
    state steps

theorem reset_not_mem_allReadings : .reset ∉ state.allReadings steps := by
  induction steps using List.reverseRecOn with
  | nil => exact List.not_mem_nil
  | append_singleton steps last ih =>
      rw [allReadings, trace_concat, List.mem_append, not_or]
      exact ⟨ih, reset_not_mem_readings _ last⟩

variable {config : PipelineConfig} {start : Instant} {coordinator : Coordinator}

theorem holds_created (hc : Coordinator.create config start = .ok coordinator) :
    let fresh := FrameMonitor.new config.targetFrameTime
    fresh.Holds (run ⟨coordinator, start⟩ steps).coordinator.monitor
      (fresh.recorded (allReadings ⟨coordinator, start⟩ steps)) := by
  obtain ⟨-, rfl⟩ := Coordinator.create_eq_ok_iff.mp hc
  rw [monitor_run]
  exact FrameMonitor.holds_run _ _ _ _

theorem targetFrame_run (hc : Coordinator.create config start = .ok coordinator) :
    (run ⟨coordinator, start⟩ steps).coordinator.monitor.targetFrame = config.targetFrameTime :=
  (holds_created steps hc).targetFrame_eq

theorem latencies_run (hc : Coordinator.create config start = .ok coordinator) :
    let latencies := (allReadings ⟨coordinator, start⟩ steps).flatMap FrameMonitor.latencyOf
    (run ⟨coordinator, start⟩ steps).coordinator.monitor.latencies.toList =
      latencies.drop (latencies.length - FrameMonitor.defaultLatencyWindow) := by
  have hlatencies := (holds_created steps hc).latencies_eq
  rw [FrameMonitor.latencies_recorded _ (reset_not_mem_allReadings _ steps)] at hlatencies
  exact hlatencies

end Run

end Pipeline

end PacedFeed
