import Mathlib.Logic.Function.Iterate
import PacedFeed.Proofs.Pipeline.Run
import PacedFeed.Session

-- Everything that can be done with a session, and what of it reaches the coordinator.

namespace PacedFeed

section Calls

variable {κ ω : Type} (f : ω → ω)

-- If all callbacks do the same to the world, all that matters is how many of them ran.
theorem Cadence.world_fireEach (call : Registration κ → Cadence κ → ω → Turn κ ω)
    (h : ∀ entry cadence world, (call entry cadence world).world = f world)
    (entries : List (Registration κ)) (cadence : Cadence κ) (world : ω) :
    (fireEach call entries cadence world).world =
      f^[(fireEach call entries cadence world).ran.length] world := by
  induction entries generalizing cadence world with
  | nil => rfl
  | cons entry entries ih =>
      rw [fireEach]
      split
      · rw [List.length_cons, Function.iterate_succ_apply, ← h entry cadence world]
        exact ih _ _
      · exact ih _ _

theorem Cadence.world_fire (call : Registration κ → Cadence κ → ω → Turn κ ω)
    (h : ∀ entry cadence world, (call entry cadence world).world = f world)
    (cadence : Cadence κ) (world : ω) :
    (cadence.fire call world).2.2 = f^[(cadence.fire call world).1.length] world :=
  world_fireEach f call h _ _ _

theorem Timers.world_runTimer (call : Timer κ → Subscriptions → ω → Turn κ ω)
    (h : ∀ timer subscriptions world, (call timer subscriptions world).world = f world)
    (now : Instant) (fuel : Nat) (timer : Timer κ) (subscriptions : Subscriptions) (world : ω) :
    (runTimer call now fuel timer subscriptions world).world =
      f^[(runTimer call now fuel timer subscriptions world).ran.length] world := by
  induction fuel generalizing timer subscriptions world with
  | zero => rfl
  | succ fuel ih =>
      rw [runTimer]
      split
      · rfl
      · split
        · rfl
        · dsimp only
          split
          · exact h timer subscriptions world
          · rw [List.length_cons, Function.iterate_succ_apply, ← h timer subscriptions world]
            exact ih _ _ _

theorem Timers.world_runAll (call : Timer κ → Subscriptions → ω → Turn κ ω)
    (h : ∀ timer subscriptions world, (call timer subscriptions world).world = f world)
    (now : Instant) (timers : List (Timer κ)) (subscriptions : Subscriptions) (world : ω) :
    (runAll call now timers subscriptions world).world =
      f^[(runAll call now timers subscriptions world).ran.length] world := by
  induction timers generalizing subscriptions world with
  | nil => rfl
  | cons timer timers ih =>
      let first := runTimer call now (Timer.grace / timer.period + 2) timer subscriptions world
      have hfirst : first.world = f^[first.ran.length] world := world_runTimer f call h ..
      rw [runAll, List.length_append, Nat.add_comm first.ran.length, Function.iterate_add_apply,
        ← hfirst]
      exact ih first.subscriptions first.world

theorem Timers.world_advance (call : Timer κ → Subscriptions → ω → Turn κ ω)
    (h : ∀ timer subscriptions world, (call timer subscriptions world).world = f world)
    (timers : Timers κ) (span : Duration) (world : ω) :
    (timers.advance call span world).2.2 =
      f^[(timers.advance call span world).1.length] world :=
  world_runAll f call h _ _ _ _

end Calls

namespace Session

-- Besides what is asked of the coordinator itself, the cadence may be fired, the clock of the
-- timers moved and the stream read, and the coordinator may be let go.
inductive Step where
  | ingest (producer : Nat) (message : Message)
  | ingestAll (producer : Nat) (messages : List Message)
  | start
  | startOnCadence
  | startOnTimer
  | stop
  | tick
  | flush
  | advance (span : Duration)
  | fire
  | advanceTimers (span : Duration)
  | release
  | subscribe
  | drain (reader : Nat)
  | scrollTo (offset : Int)
  | scrollToBottom
  | setFollowTail (follow : Bool)

def step (session : Session) : Step → Session
  | .ingest _ message => (session.ingest message).2
  | .ingestAll _ messages =>
    { session with coordinator := (session.coordinator.ingestAll messages).2 }
  | .start => session.start.2
  | .startOnCadence => session.startOnCadence.2
  | .startOnTimer => session.startOnTimer.2
  | .stop => session.stop.2
  | .tick => session.runFrame.2
  | .flush => session.flush.2
  | .advance span => session.advance span
  | .fire => session.fire.2
  | .advanceTimers span => session.advanceTimers span
  | .release => session.release
  | .subscribe => session.subscribe.2
  | .drain reader => (session.drain reader).2
  | .scrollTo offset => (session.scroll (·.scrollTo offset)).2
  | .scrollToBottom => (session.scroll (·.scrollToBottom)).2
  | .setFollowTail follow =>
    (session.scroll fun window => (window.offset, window.setFollowTail follow)).2

def run (session : Session) (steps : List Step) : Session :=
  steps.foldl step session

-- Whether a frame fails in a fire.
def fails (session : Session) : Step → Bool
  | .fire => !session.fire.1.isOk
  | _ => false

-- The coordinator inside, with the clock that it reads.
def pipeline (session : Session) : Pipeline :=
  ⟨session.coordinator, session.now⟩

-- A coordinator that was let go is out of reach.
def reach (session : Session) (step : Pipeline.Step) : List Pipeline.Step :=
  if session.released then [] else [step]

-- How many frames a fire asks for.
def fired (session : Session) : Nat :=
  (session.cadence.fire (callFrame session.now) (.ok (), session.coordinator)).1.length

-- How many frames the timers ask for when their clock is moved on.
def timed (session : Session) (span : Duration) : Nat :=
  (session.timers.advance (timeFrame (session.now + span)) span session.coordinator).1.length

-- What a step asks of the coordinator.
def calls (session : Session) : Step → List Pipeline.Step
  | .ingest producer message => [.ingest producer message]
  | .ingestAll producer messages => [.ingestAll producer messages]
  | .start | .startOnCadence | .startOnTimer => session.reach .start
  | .stop => session.reach .stop
  | .tick => session.reach .tick
  | .flush => session.reach .flush
  | .advance span => [.advance span]
  | .fire => List.replicate session.fired .tick
  | .advanceTimers span => .advance span :: List.replicate (session.timed span) .tick
  | .release | .subscribe | .drain _ => []
  | .scrollTo offset => [.scrollTo offset]
  | .scrollToBottom => [.scrollToBottom]
  | .setFollowTail follow => [.setFollowTail follow]

def allCalls (session : Session) (steps : List Step) : List Pipeline.Step :=
  trace step calls session steps

section Step

variable (session : Session)

theorem pipeline_act {α : Type} (f : Coordinator → Instant → α × Coordinator)
    (call : Pipeline.Step)
    (h : ∀ state : Pipeline, state.step call = ⟨(f state.coordinator state.now).2, state.now⟩) :
    (session.act f).2.pipeline = (session.reach call).foldl Pipeline.step session.pipeline := by
  cases hr : session.released with
  | true =>
      simp only [act, coordinator?, reach, hr, if_true]
      rfl
  | false =>
      simp only [act, coordinator?, reach, hr]
      exact (h session.pipeline).symm

theorem pipeline_unpace : session.unpace.pipeline = session.pipeline := by
  unfold unpace
  split <;> rfl

theorem pipeline_start :
    session.start.2.pipeline = (session.reach .start).foldl Pipeline.step session.pipeline :=
  session.pipeline_act _ _ fun _ => rfl

theorem pipeline_startOnCadence :
    session.startOnCadence.2.pipeline = session.start.2.pipeline := by
  unfold startOnCadence
  split
  · rename_i started h
    rw [h]
    rfl
  · rfl

theorem pipeline_startOnTimer : session.startOnTimer.2.pipeline = session.start.2.pipeline := by
  unfold startOnTimer
  split
  · rename_i started h
    rw [h]
    rfl
  · rfl

theorem pipeline_stop :
    session.stop.2.pipeline = (session.reach .stop).foldl Pipeline.step session.pipeline := by
  rw [← session.pipeline_act Coordinator.stop .stop fun _ => rfl]
  unfold stop
  split
  · rename_i stopped h
    rw [h]
    exact stopped.pipeline_unpace
  · rfl

-- Frames that follow each other at one instant.
theorem foldl_ticks (state : Pipeline) (count : Nat) :
    (List.replicate count Pipeline.Step.tick).foldl Pipeline.step state =
      ⟨(fun coordinator => (coordinator.runFrame state.now).2)^[count] state.coordinator,
        state.now⟩ := by
  induction count generalizing state with
  | zero => rfl
  | succ count ih =>
      rw [List.replicate_succ, List.foldl_cons, ih, Function.iterate_succ_apply]
      rfl

theorem pipeline_fire :
    session.fire.2.pipeline =
      (List.replicate session.fired .tick).foldl Pipeline.step session.pipeline := by
  let frame (coordinator : Coordinator) := (coordinator.runFrame session.now).2
  let turn (world : Except Overflow Unit × Coordinator) : Except Overflow Unit × Coordinator :=
    (world.1.bind fun _ => (world.2.runFrame session.now).1.map fun _ => (), frame world.2)
  have hworld := session.cadence.world_fire turn (callFrame session.now) (fun _ _ _ => rfl)
    (.ok (), session.coordinator)
  -- what came of the frames before does not matter to the next one
  have hframe : Function.Semiconj Prod.snd turn frame := fun _ => rfl
  rw [foldl_ticks]
  exact congrArg (Pipeline.mk · session.now)
    ((congrArg Prod.snd hworld).trans (hframe.iterate_right session.fired _))

theorem pipeline_advanceTimers (span : Duration) :
    (session.advanceTimers span).pipeline =
      (List.replicate (session.timed span) .tick).foldl Pipeline.step
        (session.pipeline.step (.advance span)) := by
  have hworld := session.timers.world_advance
    (fun coordinator => (coordinator.runFrame (session.now + span)).2)
    (timeFrame (session.now + span)) (fun _ _ _ => rfl) span session.coordinator
  rw [foldl_ticks]
  exact congrArg (Pipeline.mk · (session.now + span)) hworld

-- The coordinator of a session runs on what the steps ask of it.
theorem pipeline_step (step : Step) :
    (session.step step).pipeline =
      (session.calls step).foldl Pipeline.step session.pipeline := by
  cases step with
  | ingest | ingestAll | advance | scrollTo | scrollToBottom | setFollowTail => rfl
  | start => exact session.pipeline_start
  | startOnCadence => exact session.pipeline_startOnCadence.trans session.pipeline_start
  | startOnTimer => exact session.pipeline_startOnTimer.trans session.pipeline_start
  | stop => exact session.pipeline_stop
  | tick => exact session.pipeline_act Coordinator.runFrame .tick fun _ => rfl
  | flush => exact session.pipeline_act Coordinator.flush .flush fun _ => rfl
  | fire => exact session.pipeline_fire
  | advanceTimers span => exact session.pipeline_advanceTimers span
  | release => exact session.pipeline_unpace
  | subscribe =>
      rw [step, subscribe]
      split <;> rfl
  | drain reader =>
      rw [step, drain]
      split <;> rfl

theorem pipeline_run (steps : List Step) :
    (session.run steps).pipeline = session.pipeline.run (session.allCalls steps) :=
  view_foldl Pipeline.step step calls pipeline (fun whole step => whole.pipeline_step step)
    session steps

end Step

end Session

end PacedFeed
