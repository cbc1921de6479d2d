import PacedFeed.Proofs.Coordinator.Channel
import PacedFeed.Proofs.Pipeline.Run
import PacedFeed.Proofs.Window.History

-- What a coordinator holds and counts, told from what happened to messages.

namespace PacedFeed.Pipeline

-- The coordinator has taken account of everything that happened.
structure Accounted (config : PipelineConfig) (channel : Channel) (past : List Event) : Prop where
  config_eq : channel.config = config
  capacity_eq : channel.ring.capacity = config.ringCapacity
  balanced : ∃ gone, (accepted past).map Submission.message = gone ++ channel.ring.items.toList ∧
    channel.ring.Ledger gone (drained past) (lost past)
  evictions_eq : (evictions past).length = (lost past).length
  rejected_eq : channel.rejected = (rejected past).length
  retains : channel.window.Retains config.window.maxRetained (delivered past)
  evicted_eq : channel.window.evicted = channel.window.baseSeq
  rendered_eq : channel.rendered = ((deliveries past).map Batch.size).sum

section Submit

variable {coordinator : Coordinator} {message : Message}

theorem submit_of_fault (producer : Nat) {fault : IngestError}
    (hf : message.fault? coordinator.config.maxMessageBytes = some fault) :
    submit coordinator producer message = ⟨producer, message, .error fault, none⟩ := by
  simp only [submit, Coordinator.ingest, hf]

theorem submit_of_ok (producer : Nat)
    (hf : message.fault? coordinator.config.maxMessageBytes = none) :
    submit coordinator producer message =
      ⟨producer, message,
        .ok (if coordinator.ring.isFull then .acceptedWithEviction else .accepted),
        coordinator.ring.overwritten⟩ := by
  simp only [submit, Coordinator.ingest, hf]
  rfl

theorem lost_singleton (entry : Submission) :
    lost [.submission entry] = entry.overwritten.toList := by
  obtain ⟨producer, message, answer, overwritten⟩ := entry
  cases overwritten <;> rfl

theorem delivered_singleton (entry : Submission) : delivered [.submission entry] = [] := rfl

theorem deliveries_singleton (entry : Submission) : deliveries [.submission entry] = [] := rfl

theorem drained_singleton (entry : Submission) : drained [.submission entry] = [] := rfl

end Submit

section Accounted

variable {config : PipelineConfig} {channel : Channel} {past : List Event}
variable {coordinator : Coordinator}

theorem accounted_reject (h : Accounted config channel past) (producer : Nat) (message : Message)
    (fault : IngestError) :
    Accounted config { channel with rejected := channel.rejected + 1 }
      (past ++ [.submission ⟨producer, message, .error fault, none⟩]) := by
  generalize hentry : Submission.mk producer message (.error fault) none = entry
  have haccepted : accepted [.submission entry] = [] := hentry ▸ rfl
  have hrejected : rejected [.submission entry] = [entry] := hentry ▸ rfl
  have hevictions : evictions [.submission entry] = [] := hentry ▸ rfl
  have hlost : lost [.submission entry] = [] := hentry ▸ rfl
  constructor <;> simp only [accepted_append, rejected_append, evictions_append, lost_append,
    drained_append, deliveries_append, delivered_append, delivered_singleton,
    deliveries_singleton, drained_singleton, haccepted, hrejected, hevictions, hlost,
    List.append_nil]
  · exact h.config_eq
  · exact h.capacity_eq
  · exact h.balanced
  · exact h.evictions_eq
  · rw [List.length_append, List.length_singleton, h.rejected_eq]
  · exact h.retains
  · exact h.evicted_eq
  · exact h.rendered_eq

theorem accounted_accept (h : Accounted config channel past) (producer : Nat) (message : Message) :
    Accounted config { channel with ring := (channel.ring.enqueue message).2 }
      (past ++ [.submission ⟨producer, message,
        .ok (if channel.ring.isFull then .acceptedWithEviction else .accepted),
        channel.ring.overwritten⟩]) := by
  obtain ⟨gone, hentered, hledger⟩ := h.balanced
  obtain ⟨hitems, hnext⟩ := hledger.enqueue message
  generalize hentry : Submission.mk producer message
    (.ok (if channel.ring.isFull then .acceptedWithEviction else .accepted))
      channel.ring.overwritten = entry
  have haccepted : accepted [.submission entry] = [entry] := hentry ▸ rfl
  have hrejected : rejected [.submission entry] = [] := hentry ▸ rfl
  have hmessage : entry.message = message := hentry ▸ rfl
  have hlost : lost [.submission entry] = channel.ring.overwritten.toList :=
    hentry ▸ lost_singleton _
  -- the answer tells of an eviction exactly if the ring has an item to give up
  have hevictions : (evictions [.submission entry]).length =
      channel.ring.overwritten.toList.length := by
    subst hentry
    obtain ⟨hfull, ho, -⟩ | ⟨oldest, rest, hfull, -, ho, -⟩ :=
      channel.ring.enqueue_cases message hledger.capacity_pos hledger.size_le
    · rw [hfull, ho]
      rfl
    · rw [hfull, ho]
      rfl
  constructor <;> simp only [accepted_append, rejected_append, evictions_append, lost_append,
    drained_append, deliveries_append, delivered_append, delivered_singleton,
    deliveries_singleton, drained_singleton, haccepted, hrejected, hlost, List.append_nil]
  · exact h.config_eq
  · exact h.capacity_eq
  · refine ⟨_, ?_, hnext⟩
    rw [List.map_append, hentered, List.map_singleton, hmessage]
    exact hitems
  · rw [List.length_append, List.length_append, h.evictions_eq, hevictions]
  · exact h.rejected_eq
  · exact h.retains
  · exact h.evicted_eq
  · exact h.rendered_eq

theorem accounted_submit (h : Accounted config coordinator.channel past) (producer : Nat)
    (message : Message) :
    Accounted config (coordinator.ingest message).2.channel
      (past ++ [.submission (submit coordinator producer message)]) := by
  rw [Coordinator.channel_ingest]
  cases hf : message.fault? coordinator.config.maxMessageBytes with
  | some fault =>
      rw [submit_of_fault producer hf]
      exact accounted_reject h producer message fault
  | none =>
      rw [submit_of_ok producer hf]
      exact accounted_accept h producer message

theorem accounted_submitAll (h : Accounted config coordinator.channel past) (producer : Nat)
    (messages : List Message) :
    Accounted config (coordinator.ingestAll messages).2.channel
      (past ++ submitAll coordinator producer messages) := by
  rw [ingestAll_snd]
  induction messages generalizing coordinator past with
  | nil => simpa [submitAll] using h
  | cons message messages ih =>
      have hrest := ih (accounted_submit h producer message)
      rwa [List.append_assoc] at hrest

theorem accounted_collect (h : Accounted config channel past) (count : Nat) (batcher : Batcher)
    (batches : List Batch) :
    Accounted config
      { channel with
        ring := (channel.ring.dequeueMany count).2
        batcher := batcher
        window := channel.window.appendBatches batches
        rendered := channel.rendered + (batches.map Batch.size).sum }
      (past ++ collecting (channel.ring.dequeueMany count).1 batches) := by
  obtain ⟨gone, hentered, hledger⟩ := h.balanced
  obtain ⟨hitems, hnext⟩ := hledger.dequeueMany count
  constructor <;> simp only [accepted_append, rejected_append, evictions_append, lost_append,
    drained_append, deliveries_append, delivered_append, accepted_collecting, rejected_collecting,
    evictions_collecting, lost_collecting, drained_collecting, deliveries_collecting,
    delivered_collecting, List.append_nil]
  · exact h.config_eq
  · exact h.capacity_eq
  · exact ⟨_, hentered.trans hitems, hnext⟩
  · exact h.evictions_eq
  · exact h.rejected_eq
  · exact h.retains.appendBatches batches
  · exact Window.evicted_appendBatches h.evicted_eq batches
  · rw [List.map_append, List.sum_append, h.rendered_eq]

theorem accounted_view (h : Accounted config coordinator.channel past) {window : Window}
    (hw : window.Retains config.window.maxRetained (delivered past))
    (he : window.evicted = window.baseSeq) :
    Accounted config (Coordinator.channel { coordinator with window := window }) past :=
  { h with
    retains := hw
    evicted_eq := he }

theorem accounted_flush (h : Accounted config coordinator.channel past) (reason : FlushReason)
    (now : Instant) :
    Accounted config (coordinator.flushFor reason now).2.channel
      (past ++ outpour ⟨coordinator, now⟩) := by
  rw [Coordinator.channel_flushFor]
  exact accounted_collect h _ _ _

theorem accounted_frame (h : Accounted config coordinator.channel past) (now : Instant)
    (hr : coordinator.lifecycle = .running) :
    Accounted config (coordinator.runFrame now).2.channel
      (past ++ frame ⟨coordinator, now⟩) := by
  rw [Coordinator.channel_runFrame _ _ hr, Coordinator.channel_afterDelivery]
  exact accounted_collect h _ _ _

theorem accounted_step {state : Pipeline} (h : Accounted config state.coordinator.channel past)
    (step : Step) :
    Accounted config (state.step step).coordinator.channel (past ++ state.happen step) := by
  cases step with
  | ingest producer message => exact accounted_submit h producer message
  | ingestAll producer messages => exact accounted_submitAll h producer messages
  | start =>
      have hsame : (state.step .start).coordinator.channel = state.coordinator.channel :=
        state.coordinator.channel_start
      simpa only [happen, List.append_nil, hsame] using h
  | stop =>
      have hstop : (state.step .stop).coordinator.channel = _ :=
        state.coordinator.channel_stop state.now
      simp only [hstop, happen, isRunning, Bool.and_eq_true, decide_eq_true_eq]
      split
      · exact accounted_flush h .stop state.now
      · simpa only [List.append_nil] using h
  | tick =>
      by_cases hr : state.isRunning = true
      · simp only [happen, hr, if_true]
        exact accounted_frame h state.now (of_decide_eq_true hr)
      · have hsame : (state.step .tick).coordinator = state.coordinator :=
          state.coordinator.channel_runFrame_of_not_running state.now
            (of_decide_eq_false (eq_false_of_ne_true hr))
        simpa only [happen, hr, Bool.false_eq_true, if_false, List.append_nil, hsame] using h
  | flush => exact accounted_flush h .explicit state.now
  | advance span =>
      simp only [happen, List.append_nil]
      exact h
  | scrollTo offset =>
      simp only [happen, List.append_nil]
      exact accounted_view h (h.retains.scrollTo offset) h.evicted_eq
  | scrollToBottom =>
      simp only [happen, List.append_nil]
      exact accounted_view h h.retains.scrollToBottom h.evicted_eq
  | setFollowTail follow =>
      simp only [happen, List.append_nil]
      exact accounted_view h (h.retains.setFollowTail follow) h.evicted_eq

theorem accounted_run {start : Instant}
    (hc : Coordinator.create config start = .ok coordinator) (steps : List Step) :
    Accounted config (run ⟨coordinator, start⟩ steps).coordinator.channel
      (history ⟨coordinator, start⟩ steps) := by
  obtain ⟨hvalid, rfl⟩ := Coordinator.create_eq_ok_iff.mp hc
  have hcapacity := (Coordinator.parts_of_valid hvalid).1
  have hnew : Accounted config (Coordinator.new config start).channel [] :=
    { config_eq := rfl
      capacity_eq := rfl
      balanced := ⟨[], rfl, Ring.ledger_new hcapacity start⟩
      evictions_eq := rfl
      rejected_eq := rfl
      retains := Window.retains_new config.window
      evicted_eq := rfl
      rendered_eq := rfl }
  exact trace_induction (motive := fun state past =>
    Accounted config state.coordinator.channel past) step happen hnew
    (fun state past next h => accounted_step h next) steps

-- A coordinator stays with the settings it was created with.
theorem config_run {start : Instant} (hc : Coordinator.create config start = .ok coordinator)
    (steps : List Step) : (run ⟨coordinator, start⟩ steps).coordinator.config = config :=
  (accounted_run hc steps).config_eq

end Accounted

end PacedFeed.Pipeline
