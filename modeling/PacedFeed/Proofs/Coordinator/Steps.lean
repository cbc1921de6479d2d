import PacedFeed.Coordinator.Frame
import PacedFeed.Proofs.Telemetry.Tuner

-- What the operations of a coordinator come to when their conditions are taken for granted.

namespace PacedFeed.Coordinator

-- A coordinator in the middle of a frame, before it looks at what the frame did.
def afterDelivery (coordinator : Coordinator) (now : Instant) : Coordinator :=
  let collected := (coordinator.beginFrame now).collectDue now
  (collected.2.deliver collected.1.2 now).2

-- Whether tuning takes a look at a snapshot.
def evaluates (coordinator : Coordinator) (snapshot : Snapshot) (now : Instant) : Bool :=
  coordinator.config.tuning.mode ≠ .off && (coordinator.config.tuning.breaches snapshot).any &&
    coordinator.mayTune now

-- What tuning finds to say after that, if it has anything to say.
def advice? (coordinator : Coordinator) (snapshot : Snapshot) (now : Instant) :
    Option Recommendation :=
  let recommendation := coordinator.config.tuning.recommend snapshot
  if coordinator.evaluates snapshot now && !recommendation.isNoop then some recommendation else none

-- A coordinator that was given advice, before it does anything about it.
def advised (coordinator : Coordinator) (recommendation : Recommendation) (now : Instant) :
    Coordinator :=
  { coordinator with lastTuning := some now, lastRecommendation := some recommendation }

section Operations

variable (coordinator : Coordinator) (now : Instant)

theorem deliver_eq (batches : List Batch) :
    coordinator.deliver batches now =
      ((batches.map Batch.size).sum, batches.foldl (deliverBatch now) coordinator) := by
  rw [deliver, deliverM, Id.run_bind, List.idRun_foldlM]
  rfl

theorem flushFor_eq (reason : FlushReason) :
    let collected := coordinator.collectAll now
    let delivered := collected.2.deliver collected.1.toList now
    coordinator.flushFor reason now =
      (delivered.1, delivered.2.record (.flushed reason delivered.1)) := rfl

-- A look at the snapshot counts what was dropped, and may begin or end an overload.
theorem observeOverload_cases (snapshot : Snapshot) :
    let counted := { coordinator with lastDropped := snapshot.dropped }
    coordinator.observeOverload snapshot = counted ∨
      ∃ since? event, coordinator.observeOverload snapshot =
        { counted with overloadSince := since? }.record event := by
  intro counted
  rw [observeOverload, observeOverloadM]
  split
  · exact .inr ⟨_, _, rfl⟩
  · exact .inr ⟨_, _, rfl⟩
  · exact .inl rfl

theorem evaluates_eq_true_iff (snapshot : Snapshot) :
    coordinator.evaluates snapshot now = true ↔
      ¬(coordinator.config.tuning.mode = .off ∨
        !(coordinator.config.tuning.breaches snapshot).any ∨ !coordinator.mayTune now) := by
  simp [evaluates, not_or, and_assoc]

theorem heed_eq (recommendation : Recommendation) :
    coordinator.heed recommendation =
      if coordinator.config.tuning.mode = .apply then
        coordinator.config.tuning.apply recommendation coordinator.batcher
      else .ok coordinator.batcher := by
  rw [heed, heedM]
  split <;> rfl

-- Tuning has nothing to say, or what it says is followed and recorded, or it fails and is only
-- remembered.
theorem tune_cases (snapshot : Snapshot) :
    (coordinator.advice? snapshot now = none ∧
      coordinator.tune snapshot now =
        (.ok (), { coordinator with
          lastTuning :=
            if coordinator.evaluates snapshot now then some now else coordinator.lastTuning })) ∨
    ∃ recommendation, coordinator.advice? snapshot now = some recommendation ∧
      let advised := coordinator.advised recommendation now
      let applied : Bool := coordinator.config.tuning.mode = .apply
      ((∃ batcher, coordinator.heed recommendation = .ok batcher ∧
        coordinator.tune snapshot now =
          (.ok (), { advised with batcher := batcher }.record
            (.tuningRecommended coordinator.tick recommendation applied))) ∨
      (∃ overflow, coordinator.heed recommendation = .error overflow ∧
        coordinator.tune snapshot now = (.error overflow, advised))) := by
  let recommendation := coordinator.config.tuning.recommend snapshot
  by_cases he : coordinator.evaluates snapshot now = true
  · have hdue := (coordinator.evaluates_eq_true_iff now snapshot).mp he
    by_cases hn : recommendation.isNoop = true
    · refine .inl ⟨by simp [advice?, recommendation, he, hn], ?_⟩
      rw [tune, tuneM, if_neg hdue, if_pos hn, if_pos he]
      rfl
    · have htune : coordinator.tune snapshot now =
          { coordinator with lastTuning := some now }.advise recommendation
            (coordinator.heed recommendation) := by
        rw [tune, tuneM, if_neg hdue, if_neg hn]
        rfl
      refine .inr ⟨recommendation, by simp [advice?, recommendation, he, hn], ?_⟩
      rw [htune]
      cases coordinator.heed recommendation with
      | ok batcher => exact .inl ⟨batcher, rfl, rfl⟩
      | error overflow => exact .inr ⟨overflow, rfl, rfl⟩
  · have hskip := fun h => he ((coordinator.evaluates_eq_true_iff now snapshot).mpr h)
    refine .inl ⟨by simp [advice?, he], ?_⟩
    rw [tune, tuneM, if_pos (not_not.mp hskip), if_neg he]
    rfl

theorem runFrame_of_running (h : coordinator.lifecycle = .running) :
    let collected := (coordinator.beginFrame now).collectDue now
    let delivered := coordinator.afterDelivery now
    let snapshot := delivered.snapshot now
    let tuned := (delivered.observeOverload snapshot).tune snapshot now
    coordinator.runFrame now =
      (tuned.1.map fun _ => some ⟨tuned.2.tick, tuned.2.budget, collected.1.1,
        collected.1.2.length, (collected.1.2.map Batch.size).sum⟩, tuned.2) := by
  rw [runFrame, runFrameM, if_pos h]
  rfl

theorem runFrame_of_not_running (h : coordinator.lifecycle ≠ .running) :
    coordinator.runFrame now = (.ok none, coordinator) := by
  rw [runFrame, runFrameM, if_neg h]
  rfl

-- A frame that does not fail reports what it did.
theorem runFrame_fst_cases (h : coordinator.lifecycle = .running) :
    let collected := (coordinator.beginFrame now).collectDue now
    let after := (coordinator.runFrame now).2
    (coordinator.runFrame now).1 = .ok (some ⟨after.tick, after.budget, collected.1.1,
        collected.1.2.length, (collected.1.2.map Batch.size).sum⟩) ∨
      ∃ overflow, (coordinator.runFrame now).1 = .error overflow := by
  let delivered := coordinator.afterDelivery now
  let snapshot := delivered.snapshot now
  rw [coordinator.runFrame_of_running now h]
  cases ht : ((delivered.observeOverload snapshot).tune snapshot now).1 with
  | ok => exact .inl rfl
  | error overflow => exact .inr ⟨overflow, rfl⟩

theorem runFrame_snd (h : coordinator.lifecycle = .running) :
    let delivered := coordinator.afterDelivery now
    (coordinator.runFrame now).2 =
      ((delivered.observeOverload (delivered.snapshot now)).tune (delivered.snapshot now) now).2 := by
  rw [coordinator.runFrame_of_running now h]

end Operations

end PacedFeed.Coordinator
