import PacedFeed.Checked
import PacedFeed.Telemetry.Snapshot

namespace PacedFeed

inductive Adjustment where
  | keep
  | grow
  | shrink
  deriving DecidableEq, Inhabited

namespace Adjustment

def name : Adjustment → String
  | .keep => "Keep"
  | .grow => "Grow"
  | .shrink => "Shrink"

def all : List Adjustment := [.keep, .grow, .shrink]

end Adjustment

-- What should change. Growing the buffer and compressing are advice only.
structure Recommendation where
  batchSize : Adjustment := .keep
  batchInterval : Adjustment := .keep
  growBuffer : Bool := false
  aggressiveDedup : Bool := false
  enableCompression : Bool := false
  deriving DecidableEq, Inhabited

-- Which thresholds a snapshot is on the wrong side of.
structure Breaches where
  fps : Bool
  dropRate : Bool
  latency : Bool
  deriving DecidableEq

namespace Recommendation

def isNoop (recommendation : Recommendation) : Bool :=
  recommendation = {}

end Recommendation

def Breaches.any (breaches : Breaches) : Bool :=
  breaches.fps || breaches.dropRate || breaches.latency

-- A batcher with other settings. Repeats may start to be dropped, but do not stop to be.
def Batcher.retune (batcher : Batcher) (size millis : Nat) (dedup : Bool) : Batcher :=
  let batcher := (batcher.setMaxBatchSize size).setInterval (Duration.ofMillis millis)
  if dedup then batcher.setDedup true else batcher

namespace TuningConfig

-- Percent of the buffer in use above which a larger one is advised even if nothing is lost.
def bufferPressure : Double := 80

-- Percent of the buffer in use above which compression is advised.
def compressionPressure : Double := 90

-- Without frame samples nothing is known about the frame rate.
def breaches (config : TuningConfig) (snapshot : Snapshot) : Breaches where
  fps := 0 < snapshot.frameSamples ∧ snapshot.averageFps < config.fpsThreshold
  dropRate := config.dropRateThreshold < snapshot.dropRate
  latency := config.latencyThresholdMillis < snapshot.averageLatencyMillis

-- A slow frame rate calls for fewer and smaller updates, whatever else is wrong.
def recommend (config : TuningConfig) (snapshot : Snapshot) : Recommendation :=
  let breaches := config.breaches snapshot
  { batchSize :=
      if breaches.fps then .shrink else if breaches.dropRate then .grow else .keep
    batchInterval :=
      if breaches.fps then .grow else if breaches.latency then .shrink else .keep
    growBuffer := breaches.dropRate || decide (bufferPressure < snapshot.utilization)
    aggressiveDedup := breaches.dropRate && decide (0 < snapshot.repeatRate)
    enableCompression := decide (compressionPressure < snapshot.utilization) }

section Guarded

variable {m : Type → Type} [Monad m] [Guarded m]

-- Double or half the batch size, inside the bounds. Doubling stops at the largest word.
def adjustBatchSizeM (config : TuningConfig) (size : Nat) : Adjustment → m Nat
  | .keep => pure size
  | .grow => clampM config.minBatchSize config.maxBatchSize (min (2 * size) (wordLimit - 1))
  | .shrink => clampM config.minBatchSize config.maxBatchSize (size / 2)

-- Three halves or two thirds of the interval, inside the bounds. The product has to be a word.
def adjustIntervalM (config : TuningConfig) (millis : Nat) : Adjustment → ExceptT Overflow m Nat
  | .keep => pure millis
  | .grow => do
    let product ← word (3 * millis)
    clampM config.minIntervalMillis config.maxIntervalMillis (product / 2)
  | .shrink => do
    let product ← word (2 * millis)
    clampM config.minIntervalMillis config.maxIntervalMillis (product / 3)

-- The batcher with the settings that a recommendation asks for. All of them are found before one
-- is changed.
def applyM (config : TuningConfig) (recommendation : Recommendation) (batcher : Batcher) :
    ExceptT Overflow m Batcher := do
  let size ← config.adjustBatchSizeM batcher.config.maxBatchSize recommendation.batchSize
  let millis ← config.adjustIntervalM batcher.config.intervalMillis recommendation.batchInterval
  return batcher.retune size millis recommendation.aggressiveDedup

end Guarded

def adjustBatchSize (config : TuningConfig) (size : Nat) (adjustment : Adjustment) : Nat :=
  Id.run (config.adjustBatchSizeM size adjustment)

def adjustInterval (config : TuningConfig) (millis : Nat) (adjustment : Adjustment) :
    Except Overflow Nat :=
  Id.run (config.adjustIntervalM millis adjustment).run

def apply (config : TuningConfig) (recommendation : Recommendation) (batcher : Batcher) :
    Except Overflow Batcher :=
  Id.run (config.applyM recommendation batcher).run

end TuningConfig

end PacedFeed
