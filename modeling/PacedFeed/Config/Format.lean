import PacedFeed.Config

-- The written form of settings. Fields go out in the order of their declaration. On the way in
-- they may come in any order, missing ones take their defaults and unknown ones are skipped.

namespace PacedFeed

namespace BatcherConfig

def datum (config : BatcherConfig) : Datum :=
  .group [
    ("interval_ms", .count config.intervalMillis),
    ("max_batch_size", .count config.maxBatchSize),
    ("dedup", .flag config.dedup),
    ("merge", .flag config.merge)]

def ofJson? (document : Json) : Option BatcherConfig := do
  let defaults : BatcherConfig := {}
  let fields ← document.fields? ["interval_ms", "max_batch_size", "dedup", "merge"]
  return {
    intervalMillis := ← fields.orDefault "interval_ms" Json.word? defaults.intervalMillis
    maxBatchSize := ← fields.orDefault "max_batch_size" Json.word? defaults.maxBatchSize
    dedup := ← fields.orDefault "dedup" Json.flag? defaults.dedup
    merge := ← fields.orDefault "merge" Json.flag? defaults.merge }

end BatcherConfig

namespace WindowConfig

def datum (config : WindowConfig) : Datum :=
  .group [
    ("viewport_size", .count config.viewportSize),
    ("max_retained", .count config.maxRetained),
    ("follow_tail", .flag config.followTail)]

def ofJson? (document : Json) : Option WindowConfig := do
  let defaults : WindowConfig := {}
  let fields ← document.fields? ["viewport_size", "max_retained", "follow_tail"]
  return {
    viewportSize := ← fields.orDefault "viewport_size" Json.word? defaults.viewportSize
    maxRetained := ← fields.orDefault "max_retained" Json.word? defaults.maxRetained
    followTail := ← fields.orDefault "follow_tail" Json.flag? defaults.followTail }

end WindowConfig

namespace BudgetConfig

def datum (config : BudgetConfig) : Datum :=
  .group [
    ("initial", .count config.initial),
    ("min", .count config.min),
    ("max", .count config.max),
    ("grow_ratio", .real config.growRatio),
    ("shrink_ratio", .real config.shrinkRatio),
    ("grow_factor", .real config.growFactor),
    ("shrink_factor", .real config.shrinkFactor)]

def ofJson? (document : Json) : Option BudgetConfig := do
  let defaults : BudgetConfig := {}
  let fields ← document.fields?
    ["initial", "min", "max", "grow_ratio", "shrink_ratio", "grow_factor", "shrink_factor"]
  return {
    initial := ← fields.orDefault "initial" Json.word? defaults.initial
    min := ← fields.orDefault "min" Json.word? defaults.min
    max := ← fields.orDefault "max" Json.word? defaults.max
    growRatio := ← fields.orDefault "grow_ratio" Json.double? defaults.growRatio
    shrinkRatio := ← fields.orDefault "shrink_ratio" Json.double? defaults.shrinkRatio
    growFactor := ← fields.orDefault "grow_factor" Json.double? defaults.growFactor
    shrinkFactor := ← fields.orDefault "shrink_factor" Json.double? defaults.shrinkFactor }

end BudgetConfig

namespace TuningConfig

def datum (config : TuningConfig) : Datum :=
  .group [
    ("mode", .name config.mode.name),
    ("evaluation_interval_ms", .count config.evaluationMillis),
    ("fps_threshold", .real config.fpsThreshold),
    ("drop_rate_threshold", .real config.dropRateThreshold),
    ("latency_threshold_ms", .real config.latencyThresholdMillis),
    ("min_batch_size", .count config.minBatchSize),
    ("max_batch_size", .count config.maxBatchSize),
    ("min_interval_ms", .count config.minIntervalMillis),
    ("max_interval_ms", .count config.maxIntervalMillis)]

def ofJson? (document : Json) : Option TuningConfig := do
  let defaults : TuningConfig := {}
  let fields ← document.fields?
    ["mode", "evaluation_interval_ms", "fps_threshold", "drop_rate_threshold",
      "latency_threshold_ms", "min_batch_size", "max_batch_size", "min_interval_ms",
      "max_interval_ms"]
  return {
    mode := ← fields.orDefault "mode" (Json.choice? TuningMode.name TuningMode.all) defaults.mode
    evaluationMillis :=
      ← fields.orDefault "evaluation_interval_ms" Json.word? defaults.evaluationMillis
    fpsThreshold := ← fields.orDefault "fps_threshold" Json.double? defaults.fpsThreshold
    dropRateThreshold :=
      ← fields.orDefault "drop_rate_threshold" Json.double? defaults.dropRateThreshold
    latencyThresholdMillis :=
      ← fields.orDefault "latency_threshold_ms" Json.double? defaults.latencyThresholdMillis
    minBatchSize := ← fields.orDefault "min_batch_size" Json.word? defaults.minBatchSize
    maxBatchSize := ← fields.orDefault "max_batch_size" Json.word? defaults.maxBatchSize
    minIntervalMillis := ← fields.orDefault "min_interval_ms" Json.word? defaults.minIntervalMillis
    maxIntervalMillis :=
      ← fields.orDefault "max_interval_ms" Json.word? defaults.maxIntervalMillis }

end TuningConfig

namespace PipelineConfig

def datum (config : PipelineConfig) : Datum :=
  .group [
    ("ring_capacity", .count config.ringCapacity),
    ("target_fps", .real config.targetFps),
    ("flush_on_stop", .flag config.flushOnStop),
    ("max_message_bytes", .count config.maxMessageBytes),
    ("batcher", config.batcher.datum),
    ("window", config.window.datum),
    ("budget", config.budget.datum),
    ("tuning", config.tuning.datum)]

def ofJson? (document : Json) : Option PipelineConfig := do
  let defaults : PipelineConfig := {}
  let fields ← document.fields?
    ["ring_capacity", "target_fps", "flush_on_stop", "max_message_bytes", "batcher", "window",
      "budget", "tuning"]
  return {
    ringCapacity := ← fields.orDefault "ring_capacity" Json.word? defaults.ringCapacity
    targetFps := ← fields.orDefault "target_fps" Json.double? defaults.targetFps
    flushOnStop := ← fields.orDefault "flush_on_stop" Json.flag? defaults.flushOnStop
    maxMessageBytes := ← fields.orDefault "max_message_bytes" Json.word? defaults.maxMessageBytes
    batcher := ← fields.orDefault "batcher" BatcherConfig.ofJson? defaults.batcher
    window := ← fields.orDefault "window" WindowConfig.ofJson? defaults.window
    budget := ← fields.orDefault "budget" BudgetConfig.ofJson? defaults.budget
    tuning := ← fields.orDefault "tuning" TuningConfig.ofJson? defaults.tuning }

def render (config : PipelineConfig) : String :=
  config.datum.toJson.render

end PipelineConfig

end PacedFeed
