import PacedFeed.Coordinator.Delivery

namespace PacedFeed.Coordinator

-- Follows a request unless the state ignores it.
def request? (coordinator : Coordinator) (request : LifecycleRequest) : Option Coordinator :=
  (coordinator.lifecycle.transition request).map fun next =>
    { coordinator with lifecycle := next }.record
      (.stateTransition coordinator.lifecycle next coordinator.tick)

-- The time since the last frame is a pause and not a slow frame.
def start (coordinator : Coordinator) : Bool × Coordinator :=
  match coordinator.request? .start with
  | none => (false, coordinator)
  | some started => (true, { started with monitor := started.monitor.pause })

-- What is buffered or pending stays where it is, unless a flush on stop is asked for.
def stopM {m : Type → Type} [Monad m] [Guarded m] (coordinator : Coordinator) (now : Instant) :
    m (Bool × Coordinator) :=
  match coordinator.request? .stop with
  | none => pure (false, coordinator)
  | some stopped =>
    let paused := { stopped with monitor := stopped.monitor.pause }
    if coordinator.config.flushOnStop then do
      let flushed ← paused.flushForM .stop now
      return (true, flushed.2)
    else pure (true, paused)

def stop (coordinator : Coordinator) (now : Instant) : Bool × Coordinator :=
  Id.run (coordinator.stopM now)

end PacedFeed.Coordinator
