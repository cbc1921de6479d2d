import PacedFeed.Proofs.Batcher.Partition
import PacedFeed.Proofs.Coordinator.Budget
import PacedFeed.Proofs.Coordinator.Untuned

-- With valid settings the conditions of all operations hold: bounds never cross or admit zero, no
-- batch that is delivered is empty, and frames are counted from earlier ones. So a coordinator that
-- looks at the conditions does what one does that takes them for granted.

namespace PacedFeed

-- A condition that holds changes nothing.
class LawfulGuarded (m : Type → Type) [Monad m] [Guarded m] : Prop where
  require_of {condition : Prop} [Decidable condition] (h : condition) :
    (Guarded.require condition : m Unit) = pure ()

instance : LawfulGuarded Id where
  require_of _ := rfl

instance : LawfulGuarded Option where
  require_of h := if_pos h

instance {ε : Type} {m : Type → Type} [Monad m] [LawfulMonad m] [Guarded m] [LawfulGuarded m] :
    LawfulGuarded (ExceptT ε m) where
  require_of h := by
    change ExceptT.lift (Guarded.require _) = _
    rw [LawfulGuarded.require_of h]
    exact map_pure _ _

section Guarded

variable {m : Type → Type} [Monad m] [LawfulMonad m] [Guarded m] [LawfulGuarded m]

theorem clampM_eq {low high : Nat} (h : 0 < low ∧ low ≤ high) (x : Nat) :
    clampM low high x = (pure (clamp low high x) : m Nat) := by
  rw [clampM, LawfulGuarded.require_of h, pure_bind]

theorem Tick.sinceM_eq {now earlier : Tick} (h : earlier.frame ≤ now.frame) :
    now.sinceM earlier = (pure (now.frame - earlier.frame) : m Nat) := by
  rw [sinceM, LawfulGuarded.require_of h, pure_bind]

namespace TuningConfig

variable {config : TuningConfig} (h : config.fault? = none)
include h

theorem adjustBatchSizeM_eq (size : Nat) (adjustment : Adjustment) :
    config.adjustBatchSizeM size adjustment =
      (pure (config.adjustBatchSize size adjustment) : m Nat) := by
  obtain ⟨hbounds, -⟩ := bounds_of_valid h
  cases adjustment with
  | keep => rfl
  | grow => exact clampM_eq hbounds _
  | shrink => exact clampM_eq hbounds _

theorem adjustIntervalM_eq (millis : Nat) (adjustment : Adjustment) :
    config.adjustIntervalM millis adjustment =
      (.mk (pure (config.adjustInterval millis adjustment)) : ExceptT Overflow m Nat) := by
  obtain ⟨-, hbounds⟩ := bounds_of_valid h
  cases adjustment with
  | keep => rfl
  | grow =>
      simp only [adjustInterval, adjustIntervalM, clampM_eq hbounds]
      refine (pure_bind (m := m) (word (3 * millis)) _).trans ?_
      cases word (3 * millis) <;> rfl
  | shrink =>
      simp only [adjustInterval, adjustIntervalM, clampM_eq hbounds]
      refine (pure_bind (m := m) (word (2 * millis)) _).trans ?_
      cases word (2 * millis) <;> rfl

theorem applyM_eq (recommendation : Recommendation) (batcher : Batcher) :
    config.applyM recommendation batcher =
      (.mk (pure (config.apply recommendation batcher)) : ExceptT Overflow m Batcher) := by
  rw [apply_eq, applyM, adjustBatchSizeM_eq h, pure_bind, adjustIntervalM_eq h]
  refine (pure_bind (m := m) (config.adjustInterval _ _) _).trans ?_
  cases config.adjustInterval batcher.config.intervalMillis recommendation.batchInterval <;> rfl

end TuningConfig

namespace Coordinator

variable {coordinator : Coordinator}

theorem nextBudgetM_eq (h : coordinator.config.budget.fault? = none) :
    coordinator.nextBudgetM = (pure coordinator.nextBudget : m Nat) := by
  simp only [nextBudget, nextBudgetM, clampM_eq (BudgetConfig.bounds_of_valid h)]
  split <;> rfl

theorem beginFrameM_eq (h : coordinator.config.budget.fault? = none) (now : Instant) :
    coordinator.beginFrameM now = (pure (coordinator.beginFrame now) : m Coordinator) := by
  let ticked : Coordinator :=
    { coordinator with
      tick := coordinator.tick.next
      monitor := (coordinator.monitor.recordTick now).2 }
  have hbudget : ticked.nextBudgetM = (pure ticked.nextBudget : m Nat) := nextBudgetM_eq h
  exact (congrArg (fun budget? : m Nat => do
    let budget ← budget?
    return { ticked with budget := budget }) hbudget).trans (pure_bind _ _)

theorem deliverBatchM_eq {batch : Batch} (h : batch.messages ≠ []) (now : Instant) :
    deliverBatchM now coordinator batch =
      (pure (coordinator.deliverBatch now batch) : m Coordinator) := by
  rw [deliverBatchM, LawfulGuarded.require_of h, pure_bind]
  rfl

theorem deliverM_eq {batches : List Batch} (h : ∀ batch ∈ batches, batch.messages ≠ [])
    (now : Instant) :
    coordinator.deliverM batches now =
      (pure (coordinator.deliver batches now) : m (Nat × Coordinator)) := by
  have hall : batches.foldlM (deliverBatchM now) coordinator =
      (pure (batches.foldl (deliverBatch now) coordinator) : m Coordinator) := by
    induction batches generalizing coordinator with
    | nil => rfl
    | cons batch batches ih =>
        obtain ⟨hbatch, hbatches⟩ := List.forall_mem_cons.mp h
        rw [List.foldlM_cons, deliverBatchM_eq hbatch, pure_bind, ih hbatches, List.foldl_cons]
  rw [deliverM, hall, pure_bind, deliver_eq]

-- Nothing pending means no batch.
theorem flushForM_eq (coordinator : Coordinator) (reason : FlushReason) (now : Instant) :
    coordinator.flushForM reason now =
      (pure (coordinator.flushFor reason now) : m (Nat × Coordinator)) := by
  have hbatch : ∀ batch ∈ (coordinator.collectAll now).1.toList, batch.messages ≠ [] := by
    intro batch hm
    rw [collectAll_fst] at hm
    exact Batching.messages_ne_nil_of_emitAll _ .flush now batch (Option.mem_toList.mp hm)
  rw [flushForM, deliverM_eq hbatch, pure_bind, flushFor_eq]

theorem stopM_eq (coordinator : Coordinator) (now : Instant) :
    coordinator.stopM now = (pure (coordinator.stop now) : m (Bool × Coordinator)) := by
  simp only [stop, stopM, flushForM_eq, pure_bind]
  cases coordinator.request? .stop with
  | none => rfl
  | some stopped =>
      dsimp only
      split <;> rfl

theorem observeOverloadM_eq
    (h : ∀ since, coordinator.overloadSince = some since → since.frame ≤ coordinator.tick.frame)
    (snapshot : Snapshot) :
    coordinator.observeOverloadM snapshot =
      (pure (coordinator.observeOverload snapshot) : m Coordinator) := by
  rw [observeOverload, observeOverloadM, observeOverloadM]
  split
  · rfl
  · rename_i since _ hs
    rw [Tick.sinceM_eq (h since hs), pure_bind]
    rfl
  · rfl

theorem heedM_eq (h : coordinator.config.tuning.fault? = none) (recommendation : Recommendation) :
    coordinator.heedM recommendation =
      (.mk (pure (coordinator.heed recommendation)) : ExceptT Overflow m Batcher) := by
  rw [heed_eq, heedM, TuningConfig.applyM_eq h]
  split <;> rfl

theorem tuneM_eq (h : coordinator.config.tuning.fault? = none) (snapshot : Snapshot)
    (now : Instant) :
    coordinator.tuneM snapshot now =
      (pure (coordinator.tune snapshot now) : m (Except Overflow Unit × Coordinator)) := by
  have hheed (recommendation : Recommendation) :
      heedM { coordinator with lastTuning := some now } recommendation =
        (.mk (pure (coordinator.heed recommendation)) : ExceptT Overflow m Batcher) :=
    heedM_eq h recommendation
  simp only [tune, tuneM, hheed]
  split
  · rfl
  · split
    · rfl
    · exact pure_bind _ _

theorem observeM_eq (ht : coordinator.config.tuning.fault? = none)
    (ho : ∀ since, coordinator.overloadSince = some since → since.frame ≤ coordinator.tick.frame)
    (snapshot : Snapshot) (now : Instant) :
    coordinator.observeM snapshot now =
      (pure ((coordinator.observeOverload snapshot).tune snapshot now) :
        m (Except Overflow Unit × Coordinator)) := by
  have hvalid : (coordinator.observeOverload snapshot).config.tuning.fault? = none := by
    rwa [config_observeOverload]
  rw [observeM, observeOverloadM_eq ho, pure_bind, tuneM_eq hvalid]

theorem runFrameM_eq (hb : coordinator.config.budget.fault? = none)
    (ht : coordinator.config.tuning.fault? = none)
    (ho : ∀ since, coordinator.overloadSince = some since → since.frame ≤ coordinator.tick.frame)
    (now : Instant) :
    coordinator.runFrameM now =
      (pure (coordinator.runFrame now) :
        m (Except Overflow (Option TickReport) × Coordinator)) := by
  by_cases hr : coordinator.lifecycle = .running
  · have hbatch : ∀ batch ∈ ((coordinator.beginFrame now).collectDue now).1.2,
        batch.messages ≠ [] := by
      rw [collectDue_fst]
      exact Batching.messages_ne_nil_of_poll _ now
    have hdelivered : (coordinator.afterDelivery now).status = _ :=
      coordinator.status_afterDelivery now
    have hsince : ∀ since, (coordinator.afterDelivery now).overloadSince = some since →
        since.frame ≤ (coordinator.afterDelivery now).tick.frame := by
      intro since hs
      rw [coordinator.tick_afterDelivery now]
      have hsame := congrArg (fun status : Status => status.overloadSince) hdelivered
      exact Nat.le_succ_of_le (ho since (hsame.symm.trans hs))
    have hvalid : (coordinator.afterDelivery now).config.tuning.fault? = none := by
      rwa [config_afterDelivery]
    have hobserved := observeM_eq (m := m) hvalid hsince
      ((coordinator.afterDelivery now).snapshot now) now
    rw [runFrameM, if_pos hr, beginFrameM_eq hb, pure_bind]
    dsimp only
    rw [deliverM_eq hbatch, pure_bind]
    refine (congrArg (· >>= _) hobserved).trans ?_
    rw [pure_bind, coordinator.runFrame_of_running now hr]
    rfl
  · rw [runFrameM, if_neg hr, coordinator.runFrame_of_not_running now hr]

end Coordinator

end Guarded

namespace Coordinator

-- Every part looks at its own settings once more when it is built.
def assemble (config : PipelineConfig) (now : Instant) : Except ConfigError (Option Coordinator) :=
  match config.fault? with
  | some fault => .error fault
  | none => do
    let ring ← Ring.create config.ringCapacity now
    let batcher ← Batcher.create config.batcher now
    let window ← Window.create config.window
    let budget? : Option Nat := clampM config.budget.min config.budget.max config.budget.initial
    return budget?.map fun budget =>
      { new config now with ring := ring, batcher := batcher, window := window, budget := budget }

theorem assemble_of_fault {config : PipelineConfig} {fault : ConfigError}
    (h : config.fault? = some fault) (now : Instant) : assemble config now = .error fault := by
  rw [assemble, h]

theorem assemble_of_valid {config : PipelineConfig} (h : config.fault? = none) (now : Instant) :
    assemble config now = .ok (some (new config now)) := by
  obtain ⟨hcapacity, hbatcher, hwindow, hbudget, -⟩ := parts_of_valid h
  have hring : Ring.create config.ringCapacity now =
      .ok (Ring.new config.ringCapacity now : Ring Message) :=
    if_neg (Nat.ne_of_gt hcapacity)
  rw [assemble, h, hring, Batcher.create, hbatcher, Window.create, hwindow,
    clampM_eq (BudgetConfig.bounds_of_valid hbudget)]
  rfl

end Coordinator

end PacedFeed
