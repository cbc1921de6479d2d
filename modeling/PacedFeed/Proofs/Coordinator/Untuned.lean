import PacedFeed.Proofs.Coordinator.Reports

-- A coordinator that only gives advice does what one does that gives none.

namespace PacedFeed

def PipelineConfig.withMode (config : PipelineConfig) (mode : TuningMode) : PipelineConfig :=
  { config with tuning.mode := mode }

namespace Coordinator

-- A coordinator that looks as if it had never given advice. What was recorded is left out.
def untuned (coordinator : Coordinator) : Coordinator :=
  { coordinator with
    config := coordinator.config.withMode .off
    recorder := .empty
    lastTuning := none
    lastRecommendation := none }

-- Nothing else is left out.
theorem eq_of_untuned_eq {first second : Coordinator} (h : first.untuned = second.untuned) :
    first =
      { second with
        config := first.config
        recorder := first.recorder
        lastTuning := first.lastTuning
        lastRecommendation := first.lastRecommendation } := by
  obtain ⟨⟩ := first
  obtain ⟨⟩ := second
  simp only [untuned, mk.injEq] at h ⊢
  simp only [h, and_self]

theorem counts_of_untuned_eq {first second : Coordinator} (h : first.untuned = second.untuned) :
    first.tick = second.tick ∧ first.budget = second.budget := by
  have htick : first.untuned.tick = second.untuned.tick := congrArg Coordinator.tick h
  have hbudget : first.untuned.budget = second.untuned.budget := congrArg Coordinator.budget h
  exact ⟨htick, hbudget⟩

section Untuned

variable (coordinator : Coordinator) (now : Instant)

theorem untuned_setRecorder (recorder : Recorder) :
    untuned { coordinator with recorder := recorder } = coordinator.untuned := rfl

theorem untuned_record (event : Event) :
    (coordinator.record event).untuned = coordinator.untuned :=
  coordinator.untuned_setRecorder _

theorem untuned_ingest (message : Message) :
    (coordinator.ingest message).2.untuned = (coordinator.untuned.ingest message).2 := by
  have hfault : message.fault? coordinator.untuned.config.maxMessageBytes =
      message.fault? coordinator.config.maxMessageBytes := rfl
  unfold ingest
  rw [hfault]
  cases message.fault? coordinator.config.maxMessageBytes <;> rfl

theorem ingest_untuned (message : Message) :
    (coordinator.untuned.ingest message).1 = (coordinator.ingest message).1 := by
  have hfault : message.fault? coordinator.untuned.config.maxMessageBytes =
      message.fault? coordinator.config.maxMessageBytes := rfl
  unfold ingest
  rw [hfault]
  cases message.fault? coordinator.config.maxMessageBytes <;> rfl

theorem untuned_deliver (batches : List Batch) :
    (coordinator.deliver batches now).2.untuned = (coordinator.untuned.deliver batches now).2 := by
  rw [deliver_eq, deliver_eq]
  dsimp only
  induction batches generalizing coordinator with
  | nil => rfl
  | cons batch batches ih =>
      rw [List.foldl_cons, ih]
      rfl

theorem untuned_flushFor (reason : FlushReason) :
    (coordinator.flushFor reason now).2.untuned =
      (coordinator.untuned.flushFor reason now).2.untuned := by
  have hcollected : (coordinator.collectAll now).2.untuned =
      (coordinator.untuned.collectAll now).2 := rfl
  have hagain : (coordinator.untuned.collectAll now).2.untuned =
      (coordinator.untuned.collectAll now).2 := rfl
  rw [flushFor_eq, flushFor_eq, untuned_record, untuned_record, untuned_deliver, untuned_deliver,
    hcollected, hagain]
  rfl

theorem untuned_start : coordinator.start.2.untuned = coordinator.untuned.start.2.untuned := by
  have hlifecycle : coordinator.untuned.lifecycle = coordinator.lifecycle := rfl
  rw [start, start, request?_eq, request?_eq, hlifecycle]
  cases coordinator.lifecycle.transition .start <;> rfl

theorem untuned_halted : coordinator.halted.untuned = coordinator.untuned.halted.untuned := rfl

theorem untuned_stop :
    (coordinator.stop now).2.untuned = (coordinator.untuned.stop now).2.untuned := by
  have hconfig : coordinator.untuned.config.flushOnStop = coordinator.config.flushOnStop := rfl
  by_cases hr : coordinator.lifecycle = .running
  · rw [coordinator.stop_of_running now hr, coordinator.untuned.stop_of_running now hr, hconfig]
    by_cases hf : coordinator.config.flushOnStop = true
    · rw [if_pos hf, if_pos hf, untuned_flushFor, untuned_halted, ← untuned_flushFor]
    · rw [if_neg hf, if_neg hf, untuned_halted]
  · rw [coordinator.stop_of_not_running now hr, coordinator.untuned.stop_of_not_running now hr]
    rfl

theorem untuned_afterDelivery :
    (coordinator.afterDelivery now).untuned = coordinator.untuned.afterDelivery now := by
  have hcollected : ((coordinator.beginFrame now).collectDue now).2.untuned =
      ((coordinator.untuned.beginFrame now).collectDue now).2 := rfl
  rw [afterDelivery, untuned_deliver, hcollected]
  rfl

theorem untuned_observeOverload (snapshot : Snapshot) :
    (coordinator.observeOverload snapshot).untuned =
      (coordinator.untuned.observeOverload snapshot).untuned := by
  have hsince : coordinator.untuned.overloadSince = coordinator.overloadSince := rfl
  have hdropped : coordinator.untuned.lastDropped = coordinator.lastDropped := rfl
  simp only [observeOverload, observeOverloadM, hsince, hdropped]
  cases coordinator.overloadSince <;>
    cases decide (coordinator.lastDropped < snapshot.dropped) <;> rfl

-- Advice that is not applied is only noted.
theorem untuned_tune (snapshot : Snapshot) (h : coordinator.config.tuning.mode ≠ .apply) :
    (coordinator.tune snapshot now).1 = .ok () ∧
      (coordinator.tune snapshot now).2.untuned = coordinator.untuned := by
  obtain ⟨-, ht⟩ | ⟨recommendation, -, hadvised⟩ := coordinator.tune_cases now snapshot
  · rw [ht]
    exact ⟨rfl, rfl⟩
  · rw [heed_eq, if_neg h] at hadvised
    obtain ⟨batcher, hh, ht⟩ | ⟨overflow, hh, -⟩ := hadvised
    · obtain rfl := Except.ok.inj hh
      rw [ht, untuned_record]
      exact ⟨rfl, rfl⟩
    · cases hh

theorem config_observeOverload (snapshot : Snapshot) :
    (coordinator.observeOverload snapshot).config = coordinator.config :=
  congrArg Channel.config (coordinator.channel_observeOverload snapshot)

theorem snapshot_untuned : coordinator.untuned.snapshot now = coordinator.snapshot now := rfl

theorem config_afterDelivery : (coordinator.afterDelivery now).config = coordinator.config :=
  congrArg Channel.config (coordinator.channel_afterDelivery now)

-- The report of a frame is of what the frame did before it looked at the result.
theorem untuned_runFrame (h : coordinator.config.tuning.mode ≠ .apply) :
    (coordinator.untuned.runFrame now).1 = (coordinator.runFrame now).1 ∧
      (coordinator.untuned.runFrame now).2.untuned = (coordinator.runFrame now).2.untuned := by
  by_cases hr : coordinator.lifecycle = .running
  · let snapshot := (coordinator.afterDelivery now).snapshot now
    have hdelivered := coordinator.untuned_afterDelivery now
    have hsnapshot : (coordinator.untuned.afterDelivery now).snapshot now = snapshot := by
      rw [← hdelivered, snapshot_untuned]
    have hmode : ((coordinator.afterDelivery now).observeOverload snapshot).config.tuning.mode ≠
        .apply := by
      rwa [config_observeOverload, config_afterDelivery]
    have huntuned : ((coordinator.untuned.afterDelivery now).observeOverload
        snapshot).config.tuning.mode ≠ .apply := by
      rw [config_observeOverload, config_afterDelivery]
      exact TuningMode.noConfusion
    obtain ⟨hanswer, htuned⟩ := untuned_tune _ now snapshot hmode
    obtain ⟨hother, hsame⟩ := untuned_tune _ now snapshot huntuned
    rw [untuned_observeOverload (coordinator.afterDelivery now), hdelivered] at htuned
    have hagree := hsame.trans htuned.symm
    obtain ⟨htick, hbudget⟩ := counts_of_untuned_eq hagree
    rw [coordinator.runFrame_of_running now hr, coordinator.untuned.runFrame_of_running now hr,
      hsnapshot]
    dsimp only
    rw [hother, hanswer, htick, hbudget]
    exact ⟨rfl, hagree⟩
  · have hu : coordinator.untuned.lifecycle ≠ .running := hr
    rw [coordinator.runFrame_of_not_running now hr,
      coordinator.untuned.runFrame_of_not_running now hu]
    exact ⟨rfl, rfl⟩

-- Without its recommendations, a frame reports what it would have reported anyway.
theorem frameReports_untuned :
    coordinator.untuned.frameReports now =
      (coordinator.frameReports now).filter fun event => !event.isRecommendation := by
  let snapshot := (coordinator.afterDelivery now).snapshot now
  have hmode : ((coordinator.afterDelivery now).untuned.observeOverload
      snapshot).config.tuning.mode = .off := by
    rw [← config_channel, channel_observeOverload]
    rfl
  have hoverload : (coordinator.afterDelivery now).untuned.overloadReports snapshot =
      (coordinator.afterDelivery now).overloadReports snapshot := rfl
  rw [frameReports, frameReports, ← coordinator.untuned_afterDelivery, snapshot_untuned,
    observeReports, observeReports, tuningReports_of_off _ now _ hmode, List.append_nil, hoverload,
    List.filter_append, List.filter_eq_self.mpr, List.filter_eq_nil_iff.mpr, List.append_nil]
  · intro event he
    rw [isRecommendation_tuningReports _ now _ event he]
    exact Bool.false_ne_true
  · intro event he
    have hkinds := Event.kinds_of_isOverload (isOverload_overloadReports _ _ event he)
    rw [hkinds.1]
    rfl

end Untuned

end Coordinator

end PacedFeed
