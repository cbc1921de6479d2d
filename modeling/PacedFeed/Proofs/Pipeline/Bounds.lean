import PacedFeed.Proofs.Batcher.Duplicates
import PacedFeed.Proofs.Coordinator.Instruments
import PacedFeed.Proofs.Pipeline.Accounts
import PacedFeed.Proofs.Pipeline.Feed
import PacedFeed.Proofs.Telemetry.Tuner

-- Whatever comes in, and however the settings move, nothing outgrows what was configured.

namespace PacedFeed

-- Less than a full batch is waiting, for the largest batches that are allowed.
structure Batcher.Within (limit : Nat) (batcher : Batcher) : Prop where
  maxBatchSize_pos : 0 < batcher.config.maxBatchSize
  maxBatchSize_le : batcher.config.maxBatchSize ≤ limit
  pending_lt : batcher.pending.size < limit

section Batcher

variable {limit : Nat} {batcher : Batcher}

theorem Batcher.within_new {config : BatcherConfig} (h : config.fault? = none)
    (hl : config.maxBatchSize ≤ limit) (now : Instant) : (new config now).Within limit := by
  obtain ⟨-, hpos⟩ := BatcherConfig.pos_of_valid h
  exact ⟨hpos, hl, Nat.lt_of_lt_of_le hpos hl⟩

theorem Batcher.Within.of_config_eq (h : batcher.Within limit) {other : Batcher}
    (hc : other.config = batcher.config) (hp : other.pending.size < limit) :
    other.Within limit :=
  ⟨hc ▸ h.maxBatchSize_pos, hc ▸ h.maxBatchSize_le, hp⟩

-- However much comes in, the poll after it leaves less than a full batch.
theorem Batcher.Within.poll (h : batcher.Within limit) (messages : List Message) (now : Instant) :
    ((messages.foldl receive batcher).poll now).2.Within limit := by
  have hsame := batcher.config_foldl_receive messages
  have hlt := (messages.foldl receive batcher).size_poll_lt now (hsame ▸ h.maxBatchSize_pos)
  rw [hsame] at hlt
  exact h.of_config_eq ((Batcher.config_poll _ now).trans hsame)
    (Nat.lt_of_lt_of_le hlt h.maxBatchSize_le)

theorem Batcher.Within.flush (h : batcher.Within limit) (messages : List Message) (now : Instant) :
    ((messages.foldl receive batcher).flush now).2.Within limit := by
  have hsame := batcher.config_foldl_receive messages
  have hnone := (messages.foldl receive batcher).toList_pending_emitAll .flush now
  refine h.of_config_eq ((Batcher.config_emitAll _ now .flush).trans hsame) ?_
  rw [Batcher.flush, ← Fifo.length_toList, hnone]
  exact Nat.lt_of_lt_of_le h.maxBatchSize_pos h.maxBatchSize_le

-- A smaller size may leave more waiting than it allows, but not more than the largest one does.
theorem Batcher.Within.tune (h : batcher.Within limit) {config : TuningConfig}
    (hvalid : config.fault? = none) (hl : config.maxBatchSize ≤ limit)
    (recommendation : Recommendation) : (config.follow recommendation batcher).Within limit := by
  obtain ⟨⟨hmin, -⟩, -⟩ := TuningConfig.bounds_of_valid hvalid
  have hsize : 0 < config.adjustBatchSize batcher.config.maxBatchSize recommendation.batchSize ∧
      config.adjustBatchSize batcher.config.maxBatchSize recommendation.batchSize ≤ limit := by
    obtain hkept | ⟨hlow, hhigh⟩ :=
      TuningConfig.adjustBatchSize_cases hvalid batcher.config.maxBatchSize recommendation.batchSize
    · rw [hkept]
      exact ⟨h.maxBatchSize_pos, h.maxBatchSize_le⟩
    · exact ⟨Nat.lt_of_lt_of_le hmin hlow, Nat.le_trans hhigh hl⟩
  obtain ⟨-, happly⟩ | ⟨-, happly⟩ := config.apply_cases recommendation batcher
  · rw [TuningConfig.follow_of_ok happly]
    constructor
    · rw [batcher.maxBatchSize_retune hsize.1]
      exact hsize.1
    · rw [batcher.maxBatchSize_retune hsize.1]
      exact hsize.2
    · rw [batcher.pending_retune]
      exact h.pending_lt
  · rw [TuningConfig.follow_of_error happly]
    exact h

end Batcher

namespace Pipeline

theorem metered_ingestAll {coordinator : Coordinator} (h : coordinator.Metered)
    (messages : List Message) : (coordinator.ingestAll messages).2.Metered := by
  rw [ingestAll_snd]
  induction messages generalizing coordinator with
  | nil => exact h
  | cons message messages ih => exact ih (h.ingest message)

theorem metered_step {state : Pipeline} (h : state.coordinator.Metered) (step : Step) :
    (state.step step).coordinator.Metered := by
  cases step with
  | ingest producer message => exact h.ingest message
  | ingestAll producer messages => exact metered_ingestAll h messages
  | start => exact h.start
  | stop => exact h.stop state.now
  | tick => exact h.runFrame state.now
  | flush => exact h.flushFor .explicit state.now
  | advance span => exact h
  | scrollTo offset => exact h.congr rfl rfl
  | scrollToBottom => exact h.congr rfl rfl
  | setFollowTail follow => exact h.congr rfl rfl

-- What a step asks of the batcher ends with a poll or a flush. Only tuning may come after it.
theorem within_step {state : Pipeline} {limit : Nat}
    (hvalid : state.coordinator.config.tuning.fault? = none)
    (hl : state.coordinator.config.tuning.maxBatchSize ≤ limit)
    (h : state.coordinator.batcher.Within limit) (step : Step) :
    (state.step step).coordinator.batcher.Within limit := by
  have hbatcher : (state.step step).coordinator.batcher = _ :=
    congrArg Batching.batcher (batching_step state step)
  rw [hbatcher]
  cases step with
  | tick =>
      simp only [feed]
      split
      · rw [foldl_frameSteps, batcher_afterDelivery]
        have hpolled := h.poll state.due state.now
        cases state.coordinator.adjustment? state.now with
        | none => exact hpolled
        | some recommendation => exact hpolled.tune hvalid hl recommendation
      · exact h
  | flush => exact h.flush _ state.now
  | stop =>
      simp only [feed]
      split
      · exact h.flush _ state.now
      · exact h
  | _ => exact h

section Run

variable {config : PipelineConfig} {start : Instant} {coordinator : Coordinator}

theorem metered_run (hc : Coordinator.create config start = .ok coordinator)
    (steps : List Step) : (run ⟨coordinator, start⟩ steps).coordinator.Metered := by
  obtain ⟨-, rfl⟩ := Coordinator.create_eq_ok_iff.mp hc
  induction steps using List.reverseRecOn with
  | nil => exact Coordinator.metered_new config start
  | append_singleton steps step ih =>
      rw [run_concat]
      exact metered_step ih step

theorem within_run (hc : Coordinator.create config start = .ok coordinator) (steps : List Step) :
    (run ⟨coordinator, start⟩ steps).coordinator.batcher.Within
      (max config.batcher.maxBatchSize config.tuning.maxBatchSize) := by
  obtain ⟨-, hbatcher, -, -, htuning⟩ :=
    Coordinator.parts_of_valid (Coordinator.create_eq_ok_iff.mp hc).1
  induction steps using List.reverseRecOn with
  | nil =>
      obtain ⟨-, rfl⟩ := Coordinator.create_eq_ok_iff.mp hc
      exact Batcher.within_new hbatcher (Nat.le_max_left _ _) start
  | append_singleton steps step ih =>
      have hconfig := config_run hc steps
      rw [run_concat]
      refine within_step ?_ ?_ ih step
      · rw [hconfig]
        exact htuning
      · rw [hconfig]
        exact Nat.le_max_right _ _

-- Every store of a coordinator stays within a bound that the configuration gives or that is fixed,
-- whatever comes in and whatever tuning does to the batches.
theorem memory_bounded (hc : Coordinator.create config start = .ok coordinator)
    (steps : List Step) :
    let state := (run ⟨coordinator, start⟩ steps).coordinator
    state.ring.size ≤ config.ringCapacity ∧
    state.batcher.pending.size < max config.batcher.maxBatchSize config.tuning.maxBatchSize ∧
    state.batcher.pendingIds.size ≤ state.batcher.pending.size ∧
    state.window.size ≤ config.window.maxRetained ∧
    state.monitor.frames.size ≤ 120 ∧ state.monitor.latencies.size ≤ 256 ∧
    state.recorder.size ≤ 10000 := by
  intro state
  have haccounted := accounted_run hc steps
  have hmetered : state.Metered := metered_run hc steps
  refine ⟨?_, (within_run hc steps).pending_lt, ?_, ?_, hmetered.monitor.frames_le,
    hmetered.monitor.latencies_le, hmetered.recorder⟩
  · obtain ⟨gone, -, hledger⟩ := haccounted.balanced
    exact Nat.le_trans hledger.size_le (Nat.le_of_eq haccounted.capacity_eq)
  · obtain ⟨hb, hbatching⟩ := batcher_run hc steps
    have hgrounded := Batching.grounded_run hb (feeds ⟨coordinator, start⟩ steps)
    rw [← hbatching] at hgrounded
    exact hgrounded.size_pendingIds_le
  · have hsize : state.window.size = _ := haccounted.retains.size
    rw [hsize]
    exact Nat.min_le_right _ _

theorem memory_bounded_overrun :
    let config : PipelineConfig :=
      { ringCapacity := 3, batcher := { maxBatchSize := 2 }, window := { maxRetained := 2 }
        tuning := { mode := .apply, minBatchSize := 1, maxBatchSize := 4 } }
    let message : String → Message := fun id => ⟨id, .tool, .control, "x", 0, []⟩
    let steps : List Step :=
      [.start, .ingestAll 0 [message "a", message "b", message "a", message "c"], .tick,
        .advance 20000000, .ingest 1 (message "d"), .tick, .ingest 1 (message "a")]
    let state := (run ⟨.new config 0, 0⟩ steps).coordinator
    Coordinator.create config 0 = .ok (.new config 0) ∧
    state.ring.size ≤ 3 ∧ state.batcher.pending.size < 4 ∧
    state.batcher.pendingIds.size ≤ state.batcher.pending.size ∧ state.window.size ≤ 2 := by
  intro config message steps state
  have hc : Coordinator.create config 0 = .ok (.new config 0) :=
    Coordinator.create_eq_ok_iff.mpr ⟨rfl, rfl⟩
  obtain ⟨hring, hpending, hids, hwindow, -⟩ := memory_bounded hc steps
  exact ⟨hc, hring, hpending, hids, hwindow⟩

end Run

end Pipeline

end PacedFeed
