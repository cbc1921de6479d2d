import Std.Data.HashSet
import PacedFeed.Batch
import PacedFeed.Broadcast
import PacedFeed.Config.Validation
import PacedFeed.Ring

namespace PacedFeed

-- Collects messages and emits them in batches. A batch goes out when enough messages are
-- pending, when the interval has passed since the last one, or on demand. Triggers are looked
-- at by `poll` alone, so adding a message never emits.
structure Batcher where
  config : BatcherConfig
  pending : Fifo Message
  -- Ids that count as repeated when they arrive again.
  pendingIds : Std.HashSet String
  startedAt : Instant
  lastEmit : Instant
  stream : Broadcast Batch
  received : Nat
  -- Received messages that went into batches.
  processed : Nat
  -- Repeated messages that were dropped.
  skipped : Nat
  -- Repeated messages, dropped or not.
  repeated : Nat
  batches : Nat
  -- Messages in batches, after merging.
  emitted : Nat

structure BatcherMetrics where
  received : Nat
  processed : Nat
  skipped : Nat
  repeated : Nat
  batches : Nat
  averageBatchSize : Double
  throughput : Double
  utilization : Double
  dropRate : Double
  dedupRate : Double
  repeatRate : Double
  emissionRate : Double
  pending : Nat

namespace Batcher

def new (config : BatcherConfig) (now : Instant) : Batcher where
  config := config
  pending := .empty
  pendingIds := ∅
  startedAt := now
  lastEmit := now
  stream := .empty
  received := 0
  processed := 0
  skipped := 0
  repeated := 0
  batches := 0
  emitted := 0

def create (config : BatcherConfig) (now : Instant) : Except ConfigError Batcher :=
  match config.fault? with
  | some fault => .error fault
  | none => .ok (new config now)

-- Whether the interval has passed since the last emission.
def isDue (batcher : Batcher) (now : Instant) : Bool :=
  batcher.config.interval ≤ now.since batcher.lastEmit

-- Whether a poll at this instant emits.
def shouldEmit (batcher : Batcher) (now : Instant) : Bool :=
  batcher.config.maxBatchSize ≤ batcher.pending.size ||
    (!batcher.pending.isEmpty && batcher.isDue now)

-- Takes a message in. With dedup on, one whose id is already pending is dropped.
def receive (batcher : Batcher) (message : Message) : Batcher :=
  if message.id ∈ batcher.pendingIds then
    if batcher.config.dedup then
      { batcher with
        received := batcher.received + 1
        repeated := batcher.repeated + 1
        skipped := batcher.skipped + 1 }
    else
      { batcher with
        received := batcher.received + 1
        repeated := batcher.repeated + 1
        pending := batcher.pending.push message }
  else
    { batcher with
      received := batcher.received + 1
      pendingIds := batcher.pendingIds.insert message.id
      pending := batcher.pending.push message }

-- Takes a message in and says whether a poll would emit now.
def add (batcher : Batcher) (message : Message) (now : Instant) : Bool × Batcher :=
  let batcher := batcher.receive message
  (batcher.shouldEmit now, batcher)

-- Takes messages in. The answer is the one after the last message, or false without any.
def addAll (batcher : Batcher) (messages : List Message) (now : Instant) : Bool × Batcher :=
  let batcher' := messages.foldl receive batcher
  (!messages.isEmpty && batcher'.shouldEmit now, batcher')

-- Sends the given messages, which have left `pending`, as one batch.
def emit (batcher : Batcher) (source : List Message) (trigger : BatchTrigger)
    (now : Instant) : Batch × Batcher :=
  let batch : Batch := {
    seq := batcher.batches + 1
    messages := if batcher.config.merge then Message.mergeRuns source else source
    emittedAt := now
    trigger := trigger
    sourceCount := source.length }
  (batch,
    { batcher with
      pendingIds := source.foldl (fun ids message => ids.erase message.id) batcher.pendingIds
      lastEmit := now
      stream := batcher.stream.send batch
      processed := batcher.processed + source.length
      batches := batcher.batches + 1
      emitted := batcher.emitted + batch.size })

def emitOldest (batcher : Batcher) (count : Nat) (trigger : BatchTrigger) (now : Instant) :
    Batch × Batcher :=
  let (source, rest) := batcher.pending.popMany count
  { batcher with pending := rest }.emit source trigger now

def emitFull (batcher : Batcher) (now : Instant) : Nat → List Batch × Batcher
  | 0 => ([], batcher)
  | count + 1 =>
    let (batch, batcher) := batcher.emitOldest batcher.config.maxBatchSize .size now
    let (batches, batcher) := batcher.emitFull now count
    (batch :: batches, batcher)

-- Emits everything pending as one batch.
def emitAll? (batcher : Batcher) (trigger : BatchTrigger) (now : Instant) :
    Option Batch × Batcher :=
  if batcher.pending.isEmpty then (none, batcher)
  else
    let (batch, batcher) := batcher.emitOldest batcher.pending.size trigger now
    (some batch, batcher)

-- Emits what is due: full batches first, then the rest if the interval has passed since.
def poll (batcher : Batcher) (now : Instant) : List Batch × Batcher :=
  let (full, batcher) :=
    batcher.emitFull now (batcher.pending.size / batcher.config.maxBatchSize)
  if batcher.isDue now then
    let (rest, batcher) := batcher.emitAll? .interval now
    (full ++ rest.toList, batcher)
  else (full, batcher)

def flush (batcher : Batcher) (now : Instant) : Option Batch × Batcher :=
  batcher.emitAll? .flush now

def hasPending (batcher : Batcher) : Bool :=
  !batcher.pending.isEmpty

def timeUntilFlush (batcher : Batcher) (now : Instant) : Duration :=
  batcher.config.interval - now.since batcher.lastEmit

-- A size of zero is ignored.
def setMaxBatchSize (batcher : Batcher) (size : Nat) : Batcher :=
  if size = 0 then batcher
  else { batcher with config := { batcher.config with maxBatchSize := size } }

-- The interval is kept as a word of whole milliseconds. Zero is ignored.
def setInterval (batcher : Batcher) (interval : Duration) : Batcher :=
  let millis := interval.millis % wordLimit
  if millis = 0 then batcher
  else { batcher with config := { batcher.config with intervalMillis := millis } }

-- Decides about messages from now on. Repeated ones that are pending already stay.
def setDedup (batcher : Batcher) (enabled : Bool) : Batcher :=
  { batcher with config := { batcher.config with dedup := enabled } }

-- Utilization and drop rate are those of the ring the messages come from. Without one, they say
-- how full a batch is and that nothing is dropped.
def metrics (batcher : Batcher) (source : Option (Ring Message)) (now : Instant) :
    BatcherMetrics :=
  let elapsed := now.since batcher.startedAt
  let buffer := source.map (·.metrics now)
  { received := batcher.received
    processed := batcher.processed
    skipped := batcher.skipped
    repeated := batcher.repeated
    batches := batcher.batches
    averageBatchSize := share batcher.emitted batcher.batches
    throughput := perSecond batcher.processed elapsed
    utilization :=
      match buffer with
      | some metrics => metrics.utilization
      | none =>
        Double.ofNat batcher.pending.size / Double.ofNat batcher.config.maxBatchSize * 100
    dropRate :=
      match buffer with
      | some metrics => metrics.dropRate
      | none => 0
    dedupRate := share batcher.skipped batcher.received
    repeatRate := share batcher.repeated batcher.received
    emissionRate := perSecond batcher.emitted elapsed
    pending := batcher.pending.size }

end Batcher

def BatcherMetrics.datum (metrics : BatcherMetrics) : Datum :=
  .group [
    ("total_received", .count metrics.received),
    ("total_processed", .count metrics.processed),
    ("duplicates_skipped", .count metrics.skipped),
    ("repeated_ids", .count metrics.repeated),
    ("batches_processed", .count metrics.batches),
    ("average_batch_size", .real metrics.averageBatchSize),
    ("current_throughput", .real metrics.throughput),
    ("buffer_utilization", .real metrics.utilization),
    ("drop_rate", .real metrics.dropRate),
    ("deduplication_rate", .real metrics.dedupRate),
    ("repeat_rate", .real metrics.repeatRate),
    ("effective_messages_per_second", .real metrics.emissionRate),
    ("pending", .count metrics.pending)]

end PacedFeed
