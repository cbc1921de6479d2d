import PacedFeed.Coordinator.Delivery
import PacedFeed.Coordinator.Run
import PacedFeed.Coordinator.Tuning

-- One step of the frame loop.

namespace PacedFeed

structure TickReport where
  tick : Tick
  budget : Nat
  drained : Nat
  batches : Nat
  rendered : Nat
  deriving DecidableEq

namespace BudgetConfig

-- The budget after a frame, given how the frame rate relates to its target. Growing rounds up,
-- so that small budgets can still move.
def scaled (config : BudgetConfig) (budget : Nat) (ratio : Double) : Nat :=
  if config.growRatio ≤ ratio then (Double.ofNat budget * config.growFactor).toWord .ceiling
  else if ratio < config.shrinkRatio then
    (Double.ofNat budget * config.shrinkFactor).toWord .nearest
  else (Double.ofNat budget).toWord .floor

end BudgetConfig

namespace Coordinator

-- Moves a budget of messages from the ring to the batcher, which emits what is due. Says how many
-- messages it moved and what was emitted.
def collectDue (coordinator : Coordinator) (now : Instant) : (Nat × List Batch) × Coordinator :=
  let drained := coordinator.drain coordinator.budget now
  let polled := drained.2.batcher.poll now
  ((drained.1, polled.1), { drained.2 with batcher := polled.2 })

section Guarded

variable {m : Type → Type} [Monad m] [Guarded m]

-- Without frame samples the budget stays as it is.
def nextBudgetM (coordinator : Coordinator) : m Nat :=
  let config := coordinator.config.budget
  if coordinator.monitor.sampleCount = 0 then pure coordinator.budget
  else
    let ratio := coordinator.monitor.averageFps / coordinator.config.targetFps
    clampM config.min config.max (config.scaled coordinator.budget ratio)

def beginFrameM (coordinator : Coordinator) (now : Instant) : m Coordinator := do
  let coordinator :=
    { coordinator with
      tick := coordinator.tick.next
      monitor := (coordinator.monitor.recordTick now).2 }
  let budget ← coordinator.nextBudgetM
  return { coordinator with budget := budget }

-- One frame: drain a budget of messages, deliver what is due, look at the result. Nothing
-- happens unless the coordinator is running. A frame that fails has delivered what it had to.
def runFrameM (coordinator : Coordinator) (now : Instant) :
    m (Except Overflow (Option TickReport) × Coordinator) :=
  if coordinator.lifecycle = .running then do
    let begun ← coordinator.beginFrameM now
    let collected := begun.collectDue now
    let delivered ← collected.2.deliverM collected.1.2 now
    let observed ← delivered.2.observeM (delivered.2.snapshot now) now
    let report : TickReport := {
      tick := observed.2.tick
      budget := observed.2.budget
      drained := collected.1.1
      batches := collected.1.2.length
      rendered := delivered.1 }
    return (observed.1.map fun _ => some report, observed.2)
  else pure (.ok none, coordinator)

end Guarded

def nextBudget (coordinator : Coordinator) : Nat :=
  Id.run coordinator.nextBudgetM

def beginFrame (coordinator : Coordinator) (now : Instant) : Coordinator :=
  Id.run (coordinator.beginFrameM now)

def runFrame (coordinator : Coordinator) (now : Instant) :
    Except Overflow (Option TickReport) × Coordinator :=
  Id.run (coordinator.runFrameM now)

end Coordinator

end PacedFeed
