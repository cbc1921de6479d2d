import PacedFeed.Coordinator

-- The way of messages from the ring to the window.

namespace PacedFeed.Coordinator

-- Powers and sums are those of the core library, whatever else is imported.
attribute [local instance (2000)] instPowNat Zero.ofOfNat0

-- The mean age of the messages of a batch, in whole nanoseconds. The number of messages is
-- taken as a word of 32 bits.
def latency (batch : Batch) (now : Instant) : Duration :=
  (batch.messages.map fun message => now.since message.timestamp).sum /
    (batch.size % 2 ^ (32 : Nat))

section Guarded

variable {m : Type → Type} [Monad m] [Guarded m]

-- There is no mean age of no messages.
def deliverBatchM (now : Instant) (coordinator : Coordinator) (batch : Batch) :
    m Coordinator := do
  Guarded.require (batch.messages ≠ [])
  return { coordinator with
    window := (coordinator.window.appendBatch batch).2
    monitor := coordinator.monitor.recordLatency (latency batch now)
    rendered := coordinator.rendered + batch.size }

def deliverM (coordinator : Coordinator) (batches : List Batch) (now : Instant) :
    m (Nat × Coordinator) := do
  let delivered ← batches.foldlM (deliverBatchM now) coordinator
  return ((batches.map Batch.size).sum, delivered)

end Guarded

-- Moves the oldest messages, up to a number, from the ring to the batcher. Says how many.
def drain (coordinator : Coordinator) (count : Nat) (now : Instant) : Nat × Coordinator :=
  let (messages, ring) := coordinator.ring.dequeueMany count
  let (_, batcher) := coordinator.batcher.addAll messages now
  (messages.length, { coordinator with ring := ring, batcher := batcher })

-- Moves everything from the ring to the batcher, which emits all it has.
def collectAll (coordinator : Coordinator) (now : Instant) : Option Batch × Coordinator :=
  let drained := (coordinator.drain coordinator.ring.capacity now).2
  let flushed := drained.batcher.flush now
  (flushed.1, { drained with batcher := flushed.2 })

-- Delivers everything that is buffered or pending as one batch and says how many messages that
-- made. The flush is recorded even when there was nothing to deliver.
def flushForM {m : Type → Type} [Monad m] [Guarded m] (coordinator : Coordinator)
    (reason : FlushReason) (now : Instant) : m (Nat × Coordinator) := do
  let collected := coordinator.collectAll now
  let delivered ← collected.2.deliverM collected.1.toList now
  return (delivered.1, delivered.2.record (.flushed reason delivered.1))

def deliverBatch (now : Instant) (coordinator : Coordinator) (batch : Batch) : Coordinator :=
  Id.run (deliverBatchM now coordinator batch)

def deliver (coordinator : Coordinator) (batches : List Batch) (now : Instant) :
    Nat × Coordinator :=
  Id.run (coordinator.deliverM batches now)

def flushFor (coordinator : Coordinator) (reason : FlushReason) (now : Instant) :
    Nat × Coordinator :=
  Id.run (coordinator.flushForM reason now)

-- Delivers everything on demand, in any state of the lifecycle.
def flush (coordinator : Coordinator) (now : Instant) : Nat × Coordinator :=
  coordinator.flushFor .explicit now

end PacedFeed.Coordinator
