import PacedFeed.Proofs.Batcher.Partition
import PacedFeed.Proofs.Coordinator.Channel
import PacedFeed.Proofs.Pipeline.Run

-- The batcher of a coordinator runs on what the coordinator asks of it.

namespace PacedFeed

-- The steps by which a batcher follows a recommendation, given the settings that it has. There are
-- none if the recommendation cannot be followed.
def TuningConfig.settings (config : TuningConfig) (recommendation : Recommendation)
    (current : BatcherConfig) : List Batching.Step :=
  match config.adjustInterval current.intervalMillis recommendation.batchInterval with
  | .error _ => []
  | .ok millis =>
    let size := config.adjustBatchSize current.maxBatchSize recommendation.batchSize
    [.setMaxBatchSize size, .setInterval (Duration.ofMillis millis)] ++
      if recommendation.aggressiveDedup then [.setDedup true] else []

namespace Pipeline

-- The batcher inside, with the clock that it reads.
def batching (state : Pipeline) : Batching :=
  ⟨state.coordinator.batcher, state.now⟩

def tuningSteps (state : Pipeline) : List Batching.Step :=
  (state.coordinator.adjustment? state.now).elim [] fun recommendation =>
    state.coordinator.config.tuning.settings recommendation
      (state.coordinator.afterDelivery state.now).batcher.config

def frameSteps (state : Pipeline) : List Batching.Step :=
  .addAll state.due :: .poll :: state.tuningSteps

def outpourSteps (state : Pipeline) : List Batching.Step :=
  [.addAll (state.coordinator.ring.dequeueMany state.coordinator.ring.capacity).1, .flush]

-- What a step asks of the batcher.
def feed (state : Pipeline) : Step → List Batching.Step
  | .tick => if state.isRunning then state.frameSteps else []
  | .flush => state.outpourSteps
  | .stop =>
    if state.isRunning && state.coordinator.config.flushOnStop then state.outpourSteps else []
  | .advance span => [.advance span]
  | _ => []

theorem foldl_settings (config : TuningConfig) (recommendation : Recommendation)
    (batcher : Batcher) (now : Instant) :
    (config.settings recommendation batcher.config).foldl Batching.step ⟨batcher, now⟩ =
      ⟨config.follow recommendation batcher, now⟩ := by
  rw [TuningConfig.settings, TuningConfig.follow, TuningConfig.apply_eq]
  cases config.adjustInterval batcher.config.intervalMillis recommendation.batchInterval with
  | error overflow => rfl
  | ok millis => cases recommendation.aggressiveDedup <;> rfl

theorem batcher_ingest (coordinator : Coordinator) (message : Message) :
    (coordinator.ingest message).2.batcher = coordinator.batcher := by
  unfold Coordinator.ingest
  split <;> rfl

theorem batcher_ingestAll (coordinator : Coordinator) (messages : List Message) :
    (coordinator.ingestAll messages).2.batcher = coordinator.batcher :=
  ingestAll_keeps Coordinator.batcher batcher_ingest coordinator messages

theorem batcher_afterDelivery (coordinator : Coordinator) (now : Instant) :
    (coordinator.afterDelivery now).batcher =
      ((coordinator.fed (coordinator.beginFrame now).budget).poll now).2 := by
  rw [← Coordinator.batcher_channel, Coordinator.channel_afterDelivery]

theorem settings_afterDelivery (coordinator : Coordinator) (now : Instant) :
    (coordinator.afterDelivery now).batcher.config = coordinator.batcher.config := by
  rw [batcher_afterDelivery, Batcher.config_poll, Coordinator.fed, Batcher.config_foldl_receive]

-- Advice that is to be applied in a frame, with a product that no word has room for.
theorem runFrame_error_iff {state : Pipeline} {overflow : Overflow} :
    (state.coordinator.runFrame state.now).1 = .error overflow ↔
      state.isRunning = true ∧ ∃ recommendation,
        state.coordinator.adjustment? state.now = some recommendation ∧
        wordLimit ≤ recommendation.batchInterval.factor *
          state.coordinator.batcher.config.intervalMillis ∧
        overflow = ⟨recommendation.batchInterval.factor *
          state.coordinator.batcher.config.intervalMillis⟩ := by
  rw [Coordinator.runFrame_error_iff, isRunning, decide_eq_true_iff]
  simp only [TuningConfig.apply_error_iff, settings_afterDelivery]

theorem batcher_flushFor (coordinator : Coordinator) (reason : FlushReason) (now : Instant) :
    (coordinator.flushFor reason now).2.batcher =
      ((coordinator.fed coordinator.ring.capacity).flush now).2 := by
  rw [← Coordinator.batcher_channel, Coordinator.channel_flushFor]

theorem batcher_start (coordinator : Coordinator) :
    coordinator.start.2.batcher = coordinator.batcher := by
  rw [← Coordinator.batcher_channel, Coordinator.channel_start, Coordinator.batcher_channel]

theorem batcher_stop (coordinator : Coordinator) (now : Instant) :
    (coordinator.stop now).2.batcher =
      if coordinator.lifecycle = .running ∧ coordinator.config.flushOnStop = true then
        ((coordinator.fed coordinator.ring.capacity).flush now).2
      else coordinator.batcher := by
  rw [← Coordinator.batcher_channel, Coordinator.channel_stop]
  split
  · rw [Coordinator.batcher_channel, batcher_flushFor]
  · rfl

theorem foldl_frameSteps (state : Pipeline) :
    state.frameSteps.foldl Batching.step state.batching =
      ⟨(state.coordinator.adjustment? state.now).elim
        (state.coordinator.afterDelivery state.now).batcher fun recommendation =>
          state.coordinator.config.tuning.follow recommendation
            (state.coordinator.afterDelivery state.now).batcher, state.now⟩ := by
  have hpolled : (state.batching.step (.addAll state.due)).step .poll =
      ⟨(state.coordinator.afterDelivery state.now).batcher, state.now⟩ := by
    rw [batcher_afterDelivery]
    rfl
  change state.tuningSteps.foldl Batching.step _ = _
  rw [hpolled, tuningSteps]
  cases state.coordinator.adjustment? state.now with
  | none => rfl
  | some recommendation => exact foldl_settings _ _ _ _

theorem isSetting_settings (config : TuningConfig) (recommendation : Recommendation)
    (current : BatcherConfig) :
    ∀ step ∈ config.settings recommendation current, step.isSetting = true := by
  unfold TuningConfig.settings
  split
  · simp
  · cases recommendation.aggressiveDedup with
    | false => simp [Batching.Step.isSetting]
    | true => simp [Batching.Step.isSetting]

theorem isSetting_tuningSteps (state : Pipeline) :
    ∀ step ∈ state.tuningSteps, step.isSetting = true := by
  unfold tuningSteps
  cases state.coordinator.adjustment? state.now with
  | none => simp
  | some recommendation => exact isSetting_settings _ _ _

-- The batcher inside runs on what the steps ask of it.
theorem batching_step (state : Pipeline) (step : Step) :
    (state.step step).batching = (state.feed step).foldl Batching.step state.batching := by
  cases step with
  | ingest producer message => exact congrArg (Batching.mk · _) (batcher_ingest _ _)
  | ingestAll producer messages => exact congrArg (Batching.mk · _) (batcher_ingestAll _ _)
  | start => exact congrArg (Batching.mk · _) (batcher_start _)
  | stop =>
      have hstop := batcher_stop state.coordinator state.now
      simp only [batching, Pipeline.step, feed, isRunning, hstop, Bool.and_eq_true,
        decide_eq_true_eq]
      split
      · rfl
      · rfl
  | tick =>
      by_cases h : state.isRunning = true
      · have hrun := state.coordinator.channel_runFrame state.now (of_decide_eq_true h)
        have hbatcher := congrArg Channel.batcher hrun
        rw [Coordinator.batcher_channel] at hbatcher
        simp only [feed, h, if_true, foldl_frameSteps]
        exact congrArg (Batching.mk · _) hbatcher
      · have hsame := state.coordinator.channel_runFrame_of_not_running state.now
          (of_decide_eq_false (eq_false_of_ne_true h))
        simp only [batching, Pipeline.step, hsame, feed, h]
        rfl
  | flush => exact congrArg (Batching.mk · _) (batcher_flushFor _ _ _)
  | advance | scrollTo | scrollToBottom | setFollowTail => rfl

theorem messages_frameSteps (state : Pipeline) :
    state.frameSteps.flatMap Batching.Step.messages = drained state.frame := by
  have hnone : state.tuningSteps.flatMap Batching.Step.messages = [] :=
    List.flatMap_eq_nil_iff.mpr fun step hm =>
      Batching.messages_of_isSetting (isSetting_tuningSteps state step hm)
  rw [frameSteps, frame, drained_collecting, List.flatMap_cons, List.flatMap_cons, hnone]
  simp [Batching.Step.messages]

theorem batches_frameSteps (state : Pipeline) :
    Batching.batches (Batching.history state.batching state.frameSteps) =
      deliveries state.frame := by
  have hnone := Batching.history_of_forall_isSetting
    ((state.batching.step (.addAll state.due)).step .poll) (isSetting_tuningSteps state)
  rw [frame, deliveries_collecting, Coordinator.collectDue_fst, frameSteps, Batching.history, trace,
    trace, ← Batching.history, hnone]
  simp [Batching.happen]
  rfl

-- The batcher gets what leaves the ring.
theorem messages_feed (state : Pipeline) (step : Step) :
    (state.feed step).flatMap Batching.Step.messages = drained (state.happen step) := by
  cases step with
  | ingest producer message => exact (drained_submitAll _ _ _).symm
  | ingestAll producer messages => exact (drained_submitAll _ _ _).symm
  | tick =>
      simp only [feed, happen]
      split
      · exact messages_frameSteps state
      · rfl
  | flush => simp [feed, happen, outpourSteps, outpour, Batching.Step.messages]
  | stop =>
      simp only [feed, happen]
      split
      · simp [outpourSteps, outpour, Batching.Step.messages]
      · rfl
  | _ => rfl

theorem batches_outpourSteps (state : Pipeline) :
    Batching.batches (Batching.history state.batching state.outpourSteps) =
      deliveries state.outpour := by
  rw [outpour, deliveries_collecting, Coordinator.collectAll_fst]
  simp [outpourSteps, Batching.history, trace, Batching.happen]
  rfl

-- The window gets what leaves the batcher.
theorem batches_feed (state : Pipeline) (step : Step) :
    Batching.batches (Batching.history state.batching (state.feed step)) =
      deliveries (state.happen step) := by
  cases step with
  | ingest producer message => exact (deliveries_submitAll _ _ _).symm
  | ingestAll producer messages => exact (deliveries_submitAll _ _ _).symm
  | tick =>
      simp only [feed, happen]
      split
      · exact batches_frameSteps state
      · rfl
  | flush => exact batches_outpourSteps state
  | stop =>
      simp only [feed, happen]
      split
      · exact batches_outpourSteps state
      · rfl
  | _ => rfl

-- What all steps ask of the batcher.
def feeds (state : Pipeline) (steps : List Step) : List Batching.Step :=
  trace step feed state steps

theorem batching_run (state : Pipeline) (steps : List Step) :
    (state.run steps).batching = state.batching.run (state.feeds steps) :=
  view_foldl Batching.step step feed batching batching_step state steps

theorem messages_feeds (state : Pipeline) (steps : List Step) :
    (state.feeds steps).flatMap Batching.Step.messages = drained (state.history steps) := by
  induction steps generalizing state with
  | nil => rfl
  | cons step steps ih =>
      change (state.feed step ++ (state.step step).feeds steps).flatMap _ =
        drained (state.happen step ++ (state.step step).history steps)
      rw [List.flatMap_append, messages_feed, ih, drained_append]

theorem batches_feeds (state : Pipeline) (steps : List Step) :
    Batching.batches (state.batching.history (state.feeds steps)) =
      deliveries (state.history steps) := by
  induction steps generalizing state with
  | nil => rfl
  | cons step steps ih =>
      change Batching.batches (trace _ _ _ (state.feed step ++ (state.step step).feeds steps)) =
        deliveries (state.happen step ++ (state.step step).history steps)
      rw [trace_append, ← batching_step, Batching.batches_append, deliveries_append, ← ih,
        ← batches_feed]
      rfl

-- The batcher inside is one that was made and used like any other.
theorem batcher_run {config : PipelineConfig} {start : Instant} {coordinator : Coordinator}
    (hc : Coordinator.create config start = .ok coordinator) (steps : List Step) :
    Batcher.create config.batcher start = .ok coordinator.batcher ∧
      (run ⟨coordinator, start⟩ steps).batching =
        Batching.run ⟨coordinator.batcher, start⟩ (feeds ⟨coordinator, start⟩ steps) := by
  obtain ⟨hvalid, rfl⟩ := Coordinator.create_eq_ok_iff.mp hc
  refine ⟨Batcher.create_eq_ok_iff.mpr ⟨?_, rfl⟩, batching_run _ steps⟩
  exact (Coordinator.parts_of_valid hvalid).2.1

end Pipeline

end PacedFeed
