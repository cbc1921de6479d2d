import PacedFeed.Config
import PacedFeed.Config.Error

-- The first thing that is wrong with settings, in the order in which they are looked at.

namespace PacedFeed

def BatcherConfig.fault? (config : BatcherConfig) : Option ConfigError :=
  if config.intervalMillis = 0 then some .zeroBatchInterval
  else if config.maxBatchSize = 0 then some .zeroBatchSize
  else none

def WindowConfig.fault? (config : WindowConfig) : Option ConfigError :=
  if config.viewportSize = 0 then some .zeroViewport
  else if config.maxRetained = 0 then some .zeroRetention
  else none

-- The comparisons are written so that a number that is not a number is at fault.
def BudgetConfig.fault? (config : BudgetConfig) : Option ConfigError :=
  if config.min = 0 then some .zeroBudget
  else if config.max < config.min then some (.invertedBudget config.min config.max)
  else if ¬config.shrinkRatio ≤ config.growRatio then
    some (.invertedRatios config.shrinkRatio config.growRatio)
  else if ¬1 ≤ config.growFactor ∨ ¬(0 < config.shrinkFactor ∧ config.shrinkFactor ≤ 1) then
    some .unusableFactors
  else none

def TuningConfig.fault? (config : TuningConfig) : Option ConfigError :=
  if config.minBatchSize = 0 ∨ config.maxBatchSize < config.minBatchSize then
    some (.unusableBatchBounds config.minBatchSize config.maxBatchSize)
  else if config.minIntervalMillis = 0 ∨ config.maxIntervalMillis < config.minIntervalMillis then
    some (.unusableIntervalBounds config.minIntervalMillis config.maxIntervalMillis)
  else none

namespace PipelineConfig

-- The target must be positive and finite and stand for a frame time.
def hasUsableFps (config : PipelineConfig) : Bool :=
  config.targetFps.isFinite && !decide (config.targetFps ≤ 0) &&
    (frameTime? config.targetFps).isSome

def fault? (config : PipelineConfig) : Option ConfigError :=
  if config.ringCapacity = 0 then some .zeroCapacity
  else if !config.hasUsableFps then some (.invalidTargetFps config.targetFps)
  else if config.maxMessageBytes = 0 then some .zeroMessageBytes
  else
    config.batcher.fault?.or <| config.window.fault?.or <| config.budget.fault?.or
      config.tuning.fault?

end PipelineConfig

end PacedFeed
