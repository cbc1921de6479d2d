import PacedFeed.Cadence.Timer
import PacedFeed.Coordinator.Frame

namespace PacedFeed

-- What drives the frames of a session: a subscription at the cadence or at the timers.
inductive Pace where
  | fired (id : Nat)
  | timed (id : Nat)
  deriving DecidableEq

-- A coordinator and what is around it: a clock, a cadence, timers and readers of its batches.
-- Once it is released only its ring, its window and its stream are still in use.
structure Session where
  coordinator : Coordinator
  released : Bool
  now : Instant
  cadence : Cadence Unit
  timers : Timers Unit
  pace : Option Pace
  readers : List Cursor

namespace Session

def new (coordinator : Coordinator) (now : Instant) : Session :=
  ⟨coordinator, false, now, .empty, .new now, none, []⟩

def coordinator? (session : Session) : Option Coordinator :=
  if session.released then none else some session.coordinator

-- Does something with the coordinator, unless it is released.
def act {α : Type} (session : Session) (f : Coordinator → Instant → α × Coordinator) :
    Option α × Session :=
  match session.coordinator? with
  | none => (none, session)
  | some coordinator =>
    let (answer, coordinator) := f coordinator session.now
    (some answer, { session with coordinator := coordinator })

-- The way of producers into the ring. It stays open when the coordinator is released.
def ingest (session : Session) (message : Message) :
    Except IngestError IngestOutcome × Session :=
  let (answer, coordinator) := session.coordinator.ingest message
  (answer, { session with coordinator := coordinator })

def advance (session : Session) (span : Duration) : Session :=
  { session with now := session.now + span }

-- Ends the subscription that drives the frames, if there is one.
def unpace (session : Session) : Session :=
  match session.pace with
  | none => session
  | some (.fired id) => { session with cadence := session.cadence.cancel id, pace := none }
  | some (.timed id) => { session with timers := session.timers.cancel id, pace := none }

def start (session : Session) : Option Bool × Session :=
  session.act fun coordinator _ => coordinator.start

-- Starts and lets the cadence drive the frames.
def startOnCadence (session : Session) : Option Bool × Session :=
  match session.start with
  | (some true, session) =>
    let (id, cadence) := session.cadence.every session.coordinator.config.targetFrameTime ()
    (some true, { session with cadence := cadence, pace := some (.fired id) })
  | ignored => ignored

-- Starts and lets a timer drive the frames.
def startOnTimer (session : Session) : Option Bool × Session :=
  match session.start with
  | (some true, session) =>
    let (id, timers) := session.timers.every session.coordinator.config.targetFrameTime ()
    (some true, { session with timers := timers, pace := some (.timed id) })
  | ignored => ignored

def stop (session : Session) : Option Bool × Session :=
  match session.act Coordinator.stop with
  | (some true, session) => (some true, session.unpace)
  | ignored => ignored

def runFrame (session : Session) : Option (Except Overflow (Option TickReport)) × Session :=
  session.act Coordinator.runFrame

def flush (session : Session) : Option Nat × Session :=
  session.act Coordinator.flush

-- Lets the coordinator go. Nothing drives its frames any more.
def release (session : Session) : Session :=
  { session.unpace with released := true }

-- A callback that runs a frame lets go when the coordinator is not running. It is also gone when
-- its frame fails.
def verdictOf : Except Overflow (Option TickReport) → Verdict
  | .ok (some _) => .proceed
  | .ok none => .quit
  | .error _ => .quit

-- A fire answers with the first failure of a frame.
def callFrame (now : Instant) (_ : Registration Unit) (cadence : Cadence Unit)
    (world : Except Overflow Unit × Coordinator) :
    Cadence.Turn Unit (Except Overflow Unit × Coordinator) :=
  let (answer, coordinator) := world.2.runFrame now
  ⟨verdictOf answer, (), cadence, (world.1.bind fun _ => answer.map fun _ => (), coordinator)⟩

-- Each timer is on its own, so nobody hears of a frame that fails.
def timeFrame (now : Instant) (_ : Timer Unit) (subscriptions : Subscriptions)
    (coordinator : Coordinator) : Timers.Turn Unit Coordinator :=
  let (answer, coordinator) := coordinator.runFrame now
  ⟨verdictOf answer, (), subscriptions, coordinator⟩

-- Says how many frames were run.
def fire (session : Session) : Except Overflow Nat × Session :=
  let (ran, cadence, failure, coordinator) :=
    session.cadence.fire (callFrame session.now) (.ok (), session.coordinator)
  (failure.map fun _ => ran.length,
    { session with cadence := cadence, coordinator := coordinator })

-- Moves the clock and then the clock of the timers.
def advanceTimers (session : Session) (span : Duration) : Session :=
  let session := session.advance span
  let (_, timers, coordinator) :=
    session.timers.advance (timeFrame session.now) span session.coordinator
  { session with timers := timers, coordinator := coordinator }

def subscribe (session : Session) : Option Nat × Session :=
  match session.coordinator? with
  | none => (none, session)
  | some coordinator =>
    (some session.readers.length,
      { session with readers := session.readers ++ [coordinator.batcher.stream.subscribe] })

def drain (session : Session) (reader : Nat) : List (Reading Batch) × Session :=
  match session.readers[reader]? with
  | none => ([], session)
  | some cursor =>
    let (readings, cursor) := session.coordinator.batcher.stream.drain cursor
    (readings, { session with readers := session.readers.set reader cursor })

def scroll (session : Session) (move : Window → Nat × Window) : Nat × Session :=
  let (offset, window) := move session.coordinator.window
  (offset, { session with coordinator := { session.coordinator with window := window } })

end Session

end PacedFeed
