import PacedFeed.Proofs.Batcher.Counters
import PacedFeed.Proofs.Pipeline.Accounts
import PacedFeed.Proofs.Pipeline.Feed

-- What comes in goes to the window, in its order and once.

namespace PacedFeed.Pipeline

-- Where tuning applies nothing, the batcher keeps its settings.
theorem isSetting_feed {state : Pipeline} (h : state.coordinator.config.tuning.mode ≠ .apply)
    (step : Step) : ∀ request ∈ state.feed step, request.isSetting = false := by
  have hnone : state.tuningSteps = [] := by
    rw [tuningSteps, state.coordinator.adjustment?_eq_none state.now h]
    rfl
  cases step with
  | tick =>
      simp only [feed, frameSteps, hnone]
      split <;> simp [Batching.Step.isSetting]
  | flush => simp [feed, outpourSteps, Batching.Step.isSetting]
  | stop =>
      simp only [feed, outpourSteps]
      split <;> simp [Batching.Step.isSetting]
  | advance span => simp [feed, Batching.Step.isSetting]
  | _ => simp [feed]

section Run

variable {config : PipelineConfig} {start : Instant} {coordinator : Coordinator}

theorem isSetting_feeds (hc : Coordinator.create config start = .ok coordinator)
    (hm : config.tuning.mode ≠ .apply) (steps : List Step) :
    ∀ request ∈ feeds ⟨coordinator, start⟩ steps, request.isSetting = false := by
  induction steps using List.reverseRecOn with
  | nil => simp [feeds, trace]
  | append_singleton steps step ih =>
      have hconfig := config_run hc steps
      intro request hr
      rw [feeds, trace_concat] at hr
      rcases List.mem_append.mp hr with hr | hr
      · exact ih request hr
      · exact isSetting_feed (hconfig ▸ hm) step request hr

-- The accepted messages without those that the ring gave up left it or are still in it.
theorem survivors_accepted (hc : Coordinator.create config start = .ok coordinator)
    (steps : List Step) :
    let past := history ⟨coordinator, start⟩ steps
    (survivors ((lost past).map Prod.fst) (accepted past)).map Submission.message =
      drained past ++ (run ⟨coordinator, start⟩ steps).coordinator.ring.items.toList := by
  intro past
  obtain ⟨gone, hentered, hledger⟩ := (accounted_run hc steps).balanced
  rw [← survivors_map, hentered, hledger.survivors_eq]
  rfl

theorem offers_submitAll (coordinator : Coordinator) (producer : Nat) (messages : List Message) :
    (submissions (submitAll coordinator producer messages)).map
      (fun entry => (entry.producer, entry.message)) = messages.map (producer, ·) := by
  induction messages generalizing coordinator with
  | nil => rfl
  | cons message messages ih => exact congrArg ((producer, message) :: ·) (ih _)

theorem offers_happen (state : Pipeline) (step : Step) :
    (submissions (state.happen step)).map (fun entry => (entry.producer, entry.message)) =
      step.offers := by
  cases step with
  | ingest producer message => exact offers_submitAll _ producer [message]
  | ingestAll producer messages => exact offers_submitAll _ producer messages
  | tick =>
      simp only [happen]
      split
      · rw [frame, submissions_collecting]
        rfl
      · rfl
  | flush =>
      rw [happen, outpour, submissions_collecting]
      rfl
  | stop =>
      simp only [happen]
      split
      · rw [outpour, submissions_collecting]
        rfl
      · rfl
  | _ => rfl

-- Whatever was handed in got an answer.
theorem offers_history (state : Pipeline) (steps : List Step) :
    (submissions (state.history steps)).map (fun entry => (entry.producer, entry.message)) =
      steps.flatMap Step.offers := by
  induction steps generalizing state with
  | nil => rfl
  | cons step steps ih =>
      change (submissions (state.happen step ++ (state.step step).history steps)).map _ = _
      rw [submissions_append, List.map_append, offers_happen, ih, List.flatMap_cons]

-- The delivered batches carry the first of the messages that survived, and what is on its way are
-- the last of them.
theorem exists_segments (hc : Coordinator.create config start = .ok coordinator)
    (hd : config.batcher.dedup = false) (hm : config.tuning.mode ≠ .apply) (steps : List Step) :
    let state := (run ⟨coordinator, start⟩ steps).coordinator
    let past := history ⟨coordinator, start⟩ steps
    ∃ segments : List (List Message),
      List.Forall₂ (Batching.Carries config.batcher.merge) segments (deliveries past) ∧
      (survivors ((lost past).map Prod.fst) (accepted past)).map Submission.message =
        segments.flatten ++ (state.batcher.pending.toList ++ state.ring.items.toList) := by
  intro state past
  obtain ⟨hb, hbatching⟩ := batcher_run hc steps
  have hpartitioned := Batching.partitioned_run hb (feeds ⟨coordinator, start⟩ steps)
  have hkept := Batching.kept_eq_messages hb hd _ (isSetting_feeds hc hm steps)
  have hbatches : _ = deliveries past := batches_feeds ⟨coordinator, start⟩ steps
  refine ⟨_, hbatches ▸ hpartitioned.carries, ?_⟩
  rw [survivors_accepted hc steps, ← messages_feeds, ← hkept, hpartitioned.kept_eq, ← hbatching,
    List.append_assoc]
  rfl

-- With dedup off, what was delivered and what is on its way are the accepted messages without
-- those that the ring gave up, and in the same order. Merging is all that can change them.
theorem delivery_complete (hc : Coordinator.create config start = .ok coordinator)
    (hd : config.batcher.dedup = false) (hm : config.tuning.mode ≠ .apply) (steps : List Step) :
    let state := (run ⟨coordinator, start⟩ steps).coordinator
    let past := history ⟨coordinator, start⟩ steps
    let surviving := survivors ((lost past).map Prod.fst) (accepted past)
    let present := delivered past ++ state.batcher.pending.toList ++ state.ring.items.toList
    (config.batcher.merge = false → surviving.map Submission.message = present) ∧
    (config.batcher.merge = true →
      Message.mergeRuns present = Message.mergeRuns (surviving.map Submission.message)) ∧
    (∀ producer, ((surviving.filter (·.producer = producer)).map Submission.message).Sublist
      (((steps.flatMap Step.offers).filter (·.1 = producer)).map Prod.snd)) ∧
    ((lost past).map Prod.fst).Pairwise (· < ·) ∧
    (∀ entry ∈ lost past, ((accepted past).map Submission.message)[entry.1]? = some entry.2) ∧
    (accepted past).length = surviving.length + state.ring.dropped ∧
    (lost past).length = state.ring.dropped ∧
    (evictions past).length = state.ring.dropped ∧
    state.window.appended = (delivered past).length ∧
    state.window.size = min (delivered past).length config.window.maxRetained ∧
    state.window.log.toList <:+ delivered past := by
  intro state past surviving present
  have haccounted := accounted_run hc steps
  obtain ⟨gone, hentered, hledger⟩ := haccounted.balanced
  obtain ⟨segments, hcarries, hsurviving⟩ := exists_segments hc hd hm steps
  have hdelivered : delivered past = _ := Batching.flatMap_messages hcarries
  have hpresent : present =
      delivered past ++ (state.batcher.pending.toList ++ state.ring.items.toList) :=
    List.append_assoc _ _ _
  have hdropped : (lost past).length = state.ring.dropped := hledger.dropped.symm
  refine ⟨fun hmerge => ?_, fun hmerge => ?_, fun producer => ?_, hledger.increasing, ?_, ?_,
    hdropped, haccounted.evictions_eq.trans hdropped, haccounted.retains.appended,
    haccounted.retains.size, haccounted.retains.suffix⟩
  · rw [hmerge, if_neg Bool.false_ne_true] at hdelivered
    rw [hpresent, hdelivered]
    exact hsurviving
  · rw [hmerge, if_pos rfl] at hdelivered
    rw [hpresent, hdelivered, Message.mergeRuns_flatMap_append]
    exact congrArg Message.mergeRuns hsurviving.symm
  · have hsublist : surviving.Sublist (submissions past) :=
      (survivors_sublist _ _).trans List.filter_sublist
    rw [← offers_history ⟨coordinator, start⟩ steps, List.filter_map, List.map_map]
    exact (hsublist.filter _).map _
  · intro entry he
    rw [hentered, List.getElem?_append_left (hledger.lost_lt _ (List.mem_map_of_mem he))]
    exact hledger.getElem_lost entry he
  · have hlength := hledger.length_survivors
    rw [← hentered, survivors_map, List.length_map, List.length_map] at hlength
    exact hlength

end Run

theorem delivery_complete_overwriting :
    let config : PipelineConfig :=
      { ringCapacity := 2, flushOnStop := true, batcher := { dedup := false, merge := false } }
    let message : String → Message := fun id => ⟨id, .assistant, .chunk, "x", 0, []⟩
    let steps : List Step :=
      [.ingest 0 (message "a"), .ingestAll 1 [message "b", message "a"], .start, .tick,
        .ingest 0 (message ""), .ingest 0 (message "c"), .advance 16000000, .tick, .flush,
        .scrollTo 1, .ingest 1 (message "d"), .stop]
    let state := (run ⟨.new config 0, 0⟩ steps).coordinator
    let past := history ⟨.new config 0, 0⟩ steps
    Coordinator.create config 0 = .ok (.new config 0) ∧ config.batcher.dedup = false ∧
    config.tuning.mode ≠ .apply ∧
    (survivors ((lost past).map Prod.fst) (accepted past)).map Submission.message =
      delivered past ++ state.batcher.pending.toList ++ state.ring.items.toList := by
  intro config message steps state past
  have hc : Coordinator.create config 0 = .ok (.new config 0) :=
    Coordinator.create_eq_ok_iff.mpr ⟨rfl, rfl⟩
  have hm : config.tuning.mode ≠ .apply := by decide
  exact ⟨hc, rfl, hm, (delivery_complete hc rfl hm steps).1 rfl⟩

end PacedFeed.Pipeline
