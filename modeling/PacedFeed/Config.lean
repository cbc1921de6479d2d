import PacedFeed.Json.Fields

namespace PacedFeed

-- How pending messages become batches.
structure BatcherConfig where
  intervalMillis : Nat := defaultFrameMillis
  maxBatchSize : Nat := 100
  dedup : Bool := true
  merge : Bool := true
  deriving DecidableEq, Inhabited

-- How much of what was delivered stays in reach, and how much of that is in view.
structure WindowConfig where
  viewportSize : Nat := 50
  maxRetained : Nat := 10000
  followTail : Bool := false
  deriving DecidableEq, Inhabited

-- How many messages a frame may take from the buffer. At or above `growRatio` of the target
-- frame rate the budget grows, below `shrinkRatio` it shrinks.
structure BudgetConfig where
  initial : Nat := 256
  min : Nat := 16
  max : Nat := 8192
  growRatio : Double := 0.95
  shrinkRatio : Double := 0.80
  growFactor : Double := 1.2
  shrinkFactor : Double := 0.7
  deriving DecidableEq, Inhabited

-- What is done with tuning recommendations: none are made, they are recorded, or they are
-- recorded and applied.
inductive TuningMode where
  | off
  | advisory
  | apply
  deriving DecidableEq, Inhabited

structure TuningConfig where
  mode : TuningMode := .advisory
  evaluationMillis : Nat := 1000
  fpsThreshold : Double := 50.0
  dropRateThreshold : Double := 0.01
  latencyThresholdMillis : Double := 100.0
  minBatchSize : Nat := 10
  maxBatchSize : Nat := 1000
  minIntervalMillis : Nat := 8
  maxIntervalMillis : Nat := 100
  deriving DecidableEq, Inhabited

-- Everything a coordinator is built from. It stays as it is afterwards; tuning changes the
-- batcher's own copy.
structure PipelineConfig where
  ringCapacity : Nat := 65536
  targetFps : Double := 60.0
  flushOnStop : Bool := false
  maxMessageBytes : Nat := 1048576
  batcher : BatcherConfig := {}
  window : WindowConfig := {}
  budget : BudgetConfig := {}
  tuning : TuningConfig := {}
  deriving DecidableEq, Inhabited

def BatcherConfig.interval (config : BatcherConfig) : Duration :=
  Duration.ofMillis config.intervalMillis

namespace TuningMode

def name : TuningMode → String
  | .off => "Off"
  | .advisory => "Advisory"
  | .apply => "Apply"

def all : List TuningMode := [.off, .advisory, .apply]

end TuningMode

namespace PipelineConfig

-- The frame time that a target frame rate stands for, if it is one that a clock can measure.
def frameTime? (targetFps : Double) : Option Duration :=
  ((1 / targetFps).toDuration?).filter (· ≠ 0)

-- The frame time to aim for. A target rate that stands for none gives the default.
def targetFrameTime (config : PipelineConfig) : Duration :=
  (frameTime? config.targetFps).getD (Duration.ofMillis defaultFrameMillis)

end PipelineConfig

end PacedFeed
