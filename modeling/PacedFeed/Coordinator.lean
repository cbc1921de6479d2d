import PacedFeed.Telemetry.Recorder

namespace PacedFeed

-- A message feed that is paced by frames. Messages enter the ring, each frame moves a budget of
-- them on to the batcher, and what the batcher emits is appended to the window.
structure Coordinator where
  config : PipelineConfig
  lifecycle : Lifecycle
  ring : Ring Message
  -- Messages that were turned away.
  rejected : Nat
  batcher : Batcher
  window : Window
  monitor : FrameMonitor
  recorder : Recorder
  tick : Tick
  budget : Nat
  -- Messages that were appended to the window.
  rendered : Nat
  -- The ring's count of dropped messages at the last frame.
  lastDropped : Nat
  -- The frame in which the overload that is still going on was noticed.
  overloadSince : Option Tick
  lastTuning : Option Instant
  lastRecommendation : Option Recommendation

inductive IngestOutcome where
  | accepted
  | acceptedWithEviction
  deriving DecidableEq

structure IngestSummary where
  accepted : Nat := 0
  evicted : Nat := 0
  rejected : List IngestError := []
  deriving DecidableEq

def IngestSummary.count (summary : IngestSummary) :
    Except IngestError IngestOutcome → IngestSummary
  | .ok .accepted => { summary with accepted := summary.accepted + 1 }
  | .ok .acceptedWithEviction =>
    { summary with accepted := summary.accepted + 1, evicted := summary.evicted + 1 }
  | .error fault => { summary with rejected := summary.rejected ++ [fault] }

namespace Coordinator

-- The parts a valid configuration asks for.
def new (config : PipelineConfig) (now : Instant) : Coordinator where
  config := config
  lifecycle := .idle
  ring := .new config.ringCapacity now
  rejected := 0
  batcher := .new config.batcher now
  window := .new config.window
  monitor := .new config.targetFrameTime
  recorder := .empty
  tick := .zero
  budget := clamp config.budget.min config.budget.max config.budget.initial
  rendered := 0
  lastDropped := 0
  overloadSince := none
  lastTuning := none
  lastRecommendation := none

-- Everything is validated before anything is built.
def create (config : PipelineConfig) (now : Instant) : Except ConfigError Coordinator :=
  match config.fault? with
  | some fault => .error fault
  | none => .ok (new config now)

-- Takes a message into the ring, in any state of the lifecycle.
def ingest (coordinator : Coordinator) (message : Message) :
    Except IngestError IngestOutcome × Coordinator :=
  match message.fault? coordinator.config.maxMessageBytes with
  | some fault => (.error fault, { coordinator with rejected := coordinator.rejected + 1 })
  | none =>
    let (evicted, ring) := coordinator.ring.enqueue message
    (.ok (if evicted then .acceptedWithEviction else .accepted), { coordinator with ring := ring })

-- Takes messages in one by one. One that is turned away does not stop the others.
def ingestAll (coordinator : Coordinator) (messages : List Message) :
    IngestSummary × Coordinator :=
  messages.foldl (fun (summary, coordinator) message =>
    let (answer, coordinator) := coordinator.ingest message
    (summary.count answer, coordinator)) ({}, coordinator)

def record (coordinator : Coordinator) (event : Event) : Coordinator :=
  { coordinator with recorder := coordinator.recorder.record event }

def batcherMetrics (coordinator : Coordinator) (now : Instant) : BatcherMetrics :=
  coordinator.batcher.metrics (some coordinator.ring) now

def counters (coordinator : Coordinator) : Counters where
  rendered := coordinator.rendered
  rejected := coordinator.rejected
  budget := coordinator.budget

def snapshot (coordinator : Coordinator) (now : Instant) : Snapshot :=
  .ofParts (coordinator.ring.metrics now) (coordinator.batcherMetrics now)
    coordinator.window.metrics coordinator.monitor.stats coordinator.counters

end Coordinator

end PacedFeed
