import PacedFeed.Coordinator

-- What a coordinator learns from the snapshot at the end of a frame.

namespace PacedFeed

namespace Coordinator

-- Whether the evaluation interval has passed since the last evaluation.
def mayTune (coordinator : Coordinator) (now : Instant) : Bool :=
  match coordinator.lastTuning with
  | none => true
  | some last =>
    Duration.ofMillis coordinator.config.tuning.evaluationMillis ≤ now.since last

-- Takes note of advice and of what came of following it. It is remembered even if it could not be
-- followed.
def advise (coordinator : Coordinator) (recommendation : Recommendation)
    (heeded : Except Overflow Batcher) : Except Overflow Unit × Coordinator :=
  let coordinator := { coordinator with lastRecommendation := some recommendation }
  match heeded with
  | .error overflow => (.error overflow, coordinator)
  | .ok batcher =>
    let applied : Bool := coordinator.config.tuning.mode = .apply
    (.ok (), { coordinator with batcher := batcher }.record
      (.tuningRecommended coordinator.tick recommendation applied))

end Coordinator

section Guarded

variable {m : Type → Type} [Monad m] [Guarded m]

-- The number of frames since an earlier one.
def Tick.sinceM (now earlier : Tick) : m Nat := do
  Guarded.require (earlier.frame ≤ now.frame)
  return now.frame - earlier.frame

namespace Coordinator

-- An overload begins in a frame that finds newly dropped messages and ends in the first one
-- that does not.
def observeOverloadM (coordinator : Coordinator) (snapshot : Snapshot) : m Coordinator :=
  let dropping : Bool := coordinator.lastDropped < snapshot.dropped
  let coordinator := { coordinator with lastDropped := snapshot.dropped }
  match dropping, coordinator.overloadSince with
  | true, none =>
    pure <| { coordinator with overloadSince := some coordinator.tick }.record
      (.overloadStarted coordinator.tick snapshot.dropRate snapshot.utilization)
  | false, some since => do
    let duration ← coordinator.tick.sinceM since
    return { coordinator with overloadSince := none }.record
      (.overloadCleared coordinator.tick duration)
  | _, _ => pure coordinator

-- The batcher after a recommendation, which only changes it if the settings say so.
def heedM (coordinator : Coordinator) (recommendation : Recommendation) :
    ExceptT Overflow m Batcher :=
  let config := coordinator.config.tuning
  if config.mode = .apply then config.applyM recommendation coordinator.batcher
  else pure coordinator.batcher

-- Evaluates a snapshot that breaches a threshold. What comes of it is recorded, and applied if
-- the settings say so. An evaluation counts even if it recommends nothing.
def tuneM (coordinator : Coordinator) (snapshot : Snapshot) (now : Instant) :
    m (Except Overflow Unit × Coordinator) :=
  let config := coordinator.config.tuning
  if config.mode = .off ∨ !(config.breaches snapshot).any ∨ !coordinator.mayTune now then
    pure (.ok (), coordinator)
  else
    let coordinator := { coordinator with lastTuning := some now }
    let recommendation := config.recommend snapshot
    if recommendation.isNoop then pure (.ok (), coordinator)
    else do
      let heeded ← (coordinator.heedM recommendation).run
      return coordinator.advise recommendation heeded

def observeM (coordinator : Coordinator) (snapshot : Snapshot) (now : Instant) :
    m (Except Overflow Unit × Coordinator) := do
  let observed ← coordinator.observeOverloadM snapshot
  observed.tuneM snapshot now

end Coordinator

end Guarded

namespace Coordinator

def observeOverload (coordinator : Coordinator) (snapshot : Snapshot) : Coordinator :=
  Id.run (coordinator.observeOverloadM snapshot)

def heed (coordinator : Coordinator) (recommendation : Recommendation) :
    Except Overflow Batcher :=
  Id.run (coordinator.heedM recommendation).run

def tune (coordinator : Coordinator) (snapshot : Snapshot) (now : Instant) :
    Except Overflow Unit × Coordinator :=
  Id.run (coordinator.tuneM snapshot now)

def observe (coordinator : Coordinator) (snapshot : Snapshot) (now : Instant) :
    Except Overflow Unit × Coordinator :=
  Id.run (coordinator.observeM snapshot now)

end Coordinator

end PacedFeed
