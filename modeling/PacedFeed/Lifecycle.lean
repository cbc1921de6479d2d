namespace PacedFeed

-- A coordinator is idle until its first start. A stopped one can be started again.
inductive Lifecycle where
  | idle
  | running
  | stopped
  deriving DecidableEq, Inhabited

inductive LifecycleRequest where
  | start
  | stop
  deriving DecidableEq

namespace Lifecycle

-- The state after a request, or `none` when the request is ignored.
def transition : Lifecycle → LifecycleRequest → Option Lifecycle
  | .idle, .start | .stopped, .start => some .running
  | .running, .stop => some .stopped
  | _, _ => none

-- The answers to a series of requests. An ignored request leaves the state as it was.
def transitions (state : Lifecycle) : List LifecycleRequest → List (Option Lifecycle)
  | [] => []
  | request :: rest =>
      let next := state.transition request
      next :: (next.getD state).transitions rest

def name : Lifecycle → String
  | .idle => "Idle"
  | .running => "Running"
  | .stopped => "Stopped"

def all : List Lifecycle := [.idle, .running, .stopped]

theorem mem_all (state : Lifecycle) : state ∈ all := by
  cases state <;> decide

theorem transition_start_eq_none_iff (state : Lifecycle) :
    state.transition .start = none ↔ state = .running := by
  cases state <;> decide

theorem transition_stop_eq_none_iff (state : Lifecycle) :
    state.transition .stop = none ↔ state ≠ .running := by
  cases state <;> decide

end Lifecycle

end PacedFeed
