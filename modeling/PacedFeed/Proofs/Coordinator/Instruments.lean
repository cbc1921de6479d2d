import PacedFeed.Proofs.Coordinator.Steps

-- What a coordinator measures and records never outgrows its limits.

namespace PacedFeed

-- The monitor keeps no more samples than its windows are wide.
structure FrameMonitor.Within (frameWindow latencyWindow : Nat) (monitor : FrameMonitor) :
    Prop where
  frameWindow_eq : monitor.frameWindow = frameWindow
  latencyWindow_eq : monitor.latencyWindow = latencyWindow
  frames_le : monitor.frames.size ≤ frameWindow
  latencies_le : monitor.latencies.size ≤ latencyWindow

section Monitor

variable {frameWindow latencyWindow : Nat} {monitor : FrameMonitor}

theorem FrameMonitor.within_new (targetFrame : Duration) :
    Within defaultFrameWindow defaultLatencyWindow (.new targetFrame) where
  frameWindow_eq := rfl
  latencyWindow_eq := rfl
  frames_le := Nat.zero_le _
  latencies_le := Nat.zero_le _

theorem FrameMonitor.Within.recordFrame (h : monitor.Within frameWindow latencyWindow)
    (frame : Duration) : (monitor.recordFrame frame).Within frameWindow latencyWindow := by
  refine ⟨h.frameWindow_eq, h.latencyWindow_eq, ?_, h.latencies_le⟩
  rw [FrameMonitor.recordFrame, Fifo.size_keepNewest, h.frameWindow_eq]
  exact Nat.min_le_right _ _

theorem FrameMonitor.Within.recordLatency (h : monitor.Within frameWindow latencyWindow)
    (latency : Duration) : (monitor.recordLatency latency).Within frameWindow latencyWindow := by
  refine ⟨h.frameWindow_eq, h.latencyWindow_eq, h.frames_le, ?_⟩
  rw [FrameMonitor.recordLatency, Fifo.size_keepNewest, h.latencyWindow_eq]
  exact Nat.min_le_right _ _

theorem FrameMonitor.Within.setLastTick (h : monitor.Within frameWindow latencyWindow)
    (lastTick : Option Instant) :
    FrameMonitor.Within frameWindow latencyWindow { monitor with lastTick := lastTick } :=
  ⟨h.frameWindow_eq, h.latencyWindow_eq, h.frames_le, h.latencies_le⟩

theorem FrameMonitor.Within.recordTick (h : monitor.Within frameWindow latencyWindow)
    (now : Instant) : (monitor.recordTick now).2.Within frameWindow latencyWindow := by
  unfold FrameMonitor.recordTick
  split
  · exact h.setLastTick (some now)
  · exact (h.setLastTick (some now)).recordFrame _

theorem FrameMonitor.Within.pause (h : monitor.Within frameWindow latencyWindow) :
    monitor.pause.Within frameWindow latencyWindow :=
  h.setLastTick none

end Monitor

theorem Recorder.size_record_le (recorder : Recorder) (event : Event) :
    (recorder.record event).size ≤ limit := by
  rw [Recorder.record, Recorder.size, Fifo.size_keepNewest]
  exact Nat.min_le_right _ _

namespace Coordinator

-- The monitor and the recorder are within their limits.
structure Metered (coordinator : Coordinator) : Prop where
  monitor : coordinator.monitor.Within FrameMonitor.defaultFrameWindow
    FrameMonitor.defaultLatencyWindow
  recorder : coordinator.recorder.size ≤ Recorder.limit

theorem metered_new (config : PipelineConfig) (now : Instant) : (new config now).Metered where
  monitor := FrameMonitor.within_new _
  recorder := Nat.zero_le _

section Metered

variable {coordinator : Coordinator}

-- Most operations leave both alone.
theorem Metered.congr (h : coordinator.Metered) {other : Coordinator}
    (hm : other.monitor = coordinator.monitor) (hr : other.recorder = coordinator.recorder) :
    other.Metered :=
  ⟨hm ▸ h.monitor, hr ▸ h.recorder⟩

-- Stated for any recorder, so that nothing runs the log against its limit to check it.
theorem Metered.setRecorder (h : coordinator.Metered) {recorder : Recorder}
    (hr : recorder.size ≤ Recorder.limit) :
    Metered { coordinator with recorder := recorder } :=
  ⟨h.monitor, hr⟩

theorem Metered.record (h : coordinator.Metered) (event : Event) :
    (coordinator.record event).Metered :=
  h.setRecorder (coordinator.recorder.size_record_le event)

theorem Metered.pause (h : coordinator.Metered) :
    Metered { coordinator with monitor := coordinator.monitor.pause } :=
  ⟨h.monitor.pause, h.recorder⟩

theorem Metered.ingest (h : coordinator.Metered) (message : Message) :
    (coordinator.ingest message).2.Metered := by
  unfold Coordinator.ingest
  split
  · exact h.congr rfl rfl
  · exact h.congr rfl rfl

theorem Metered.deliver (h : coordinator.Metered) (batches : List Batch) (now : Instant) :
    (coordinator.deliver batches now).2.Metered := by
  unfold Coordinator.deliver
  induction batches generalizing coordinator with
  | nil => exact h
  | cons batch batches ih => exact ih ⟨h.monitor.recordLatency _, h.recorder⟩

theorem Metered.collectAll (h : coordinator.Metered) (now : Instant) :
    (coordinator.collectAll now).2.Metered :=
  h.congr rfl rfl

theorem Metered.collectDue (h : coordinator.Metered) (now : Instant) :
    (coordinator.collectDue now).2.Metered :=
  h.congr rfl rfl

theorem Metered.flushFor (h : coordinator.Metered) (reason : FlushReason) (now : Instant) :
    (coordinator.flushFor reason now).2.Metered :=
  ((h.collectAll now).deliver _ now).record _

theorem Metered.request? (h : coordinator.Metered) {request : LifecycleRequest}
    {next : Coordinator} (hr : coordinator.request? request = some next) : next.Metered := by
  obtain ⟨lifecycle, -, rfl⟩ := Option.map_eq_some_iff.mp hr
  refine Metered.record ?_ _
  exact h.congr rfl rfl

theorem Metered.start (h : coordinator.Metered) : coordinator.start.2.Metered := by
  unfold Coordinator.start
  cases hr : coordinator.request? .start with
  | none => exact h
  | some started => exact (h.request? hr).pause

theorem Metered.stop (h : coordinator.Metered) (now : Instant) :
    (coordinator.stop now).2.Metered := by
  rw [Coordinator.stop, stopM]
  cases hr : coordinator.request? .stop with
  | none => exact h
  | some stopped =>
      have hpaused := (h.request? hr).pause
      dsimp only
      split
      · exact hpaused.flushFor .stop now
      · exact hpaused

theorem Metered.beginFrame (h : coordinator.Metered) (now : Instant) :
    (coordinator.beginFrame now).Metered :=
  ⟨h.monitor.recordTick now, h.recorder⟩

theorem Metered.observeOverload (h : coordinator.Metered) (snapshot : Snapshot) :
    (coordinator.observeOverload snapshot).Metered := by
  obtain hcounted | ⟨since?, event, hrecorded⟩ := coordinator.observeOverload_cases snapshot
  · rw [hcounted]
    exact h.congr rfl rfl
  · rw [hrecorded]
    refine Metered.record ?_ _
    exact h.congr rfl rfl

theorem Metered.tune (h : coordinator.Metered) (snapshot : Snapshot) (now : Instant) :
    (coordinator.tune snapshot now).2.Metered := by
  obtain ⟨-, ht⟩ | ⟨recommendation, -, ⟨batcher, -, ht⟩ | ⟨overflow, -, ht⟩⟩ :=
    coordinator.tune_cases now snapshot
  · rw [ht]
    exact h.congr rfl rfl
  · rw [ht]
    refine Metered.record ?_ _
    exact h.congr rfl rfl
  · rw [ht]
    exact h.congr rfl rfl

theorem Metered.runFrame (h : coordinator.Metered) (now : Instant) :
    (coordinator.runFrame now).2.Metered := by
  by_cases hr : coordinator.lifecycle = .running
  · rw [coordinator.runFrame_snd now hr]
    exact ((((h.beginFrame now).collectDue now).deliver _ now).observeOverload _).tune _ now
  · rwa [coordinator.runFrame_of_not_running now hr]

end Metered

end Coordinator

end PacedFeed
