import PacedFeed.Cadence.Timer

namespace PacedFeed

mutual

-- A callback given as data: what it does at its first, second, … call, and the call at which it
-- lets go, if any.
inductive Script where
  | mk (actions : List (Nat × List Action)) (quitAt : Option Nat)

inductive Action where
  | cancel (id : Nat)
  | drop (id : Nat)
  | register (interval : Duration) (script : Script)

end

-- A script and the number of its calls so far.
structure ScriptedCallback where
  script : Script
  calls : Nat

instance : Inhabited Script := ⟨.mk [] none⟩

instance : Inhabited Action := ⟨.cancel 0⟩

namespace Script

def actionsAt : Script → Nat → List Action
  | .mk actions _, call => (actions.lookup call).getD []

def verdictAt : Script → Nat → Verdict
  | .mk _ quitAt, call => if quitAt = some call then .quit else .proceed

def callback (script : Script) : ScriptedCallback :=
  ⟨script, 0⟩

end Script

namespace Action

def perform (cadence : Cadence ScriptedCallback) : Action → Cadence ScriptedCallback
  | .cancel id => cadence.cancel id
  | .drop id => cadence.drop id
  | .register interval script => (cadence.every interval script.callback).2

-- A timer's callback registers nothing.
def performOn (subscriptions : Subscriptions) : Action → Subscriptions
  | .cancel id => subscriptions.cancel id
  | .drop id => subscriptions.drop id
  | .register .. => subscriptions

end Action

namespace ScriptedCallback

def call (entry : Registration ScriptedCallback) (cadence : Cadence ScriptedCallback) (_ : Unit) :
    Cadence.Turn ScriptedCallback Unit :=
  let count := entry.callback.calls + 1
  { verdict := entry.callback.script.verdictAt count
    callback := { entry.callback with calls := count }
    cadence := (entry.callback.script.actionsAt count).foldl Action.perform cadence
    world := () }

def callTimer (timer : Timer ScriptedCallback) (subscriptions : Subscriptions) (_ : Unit) :
    Timers.Turn ScriptedCallback Unit :=
  let count := timer.callback.calls + 1
  { verdict := timer.callback.script.verdictAt count
    callback := { timer.callback with calls := count }
    subscriptions := (timer.callback.script.actionsAt count).foldl Action.performOn subscriptions
    world := () }

end ScriptedCallback

def Cadence.fireScripts (cadence : Cadence ScriptedCallback) :
    List Nat × Cadence ScriptedCallback :=
  let (ran, cadence, _) := cadence.fire ScriptedCallback.call ()
  (ran, cadence)

def Timers.advanceScripts (timers : Timers ScriptedCallback) (span : Duration) :
    List Nat × Timers ScriptedCallback :=
  let (ran, timers, _) := timers.advance ScriptedCallback.callTimer span ()
  (ran, timers)

end PacedFeed
