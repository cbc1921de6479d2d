import PacedFeed.Proofs.Batcher.Partition

-- How the counters of a batcher relate to each other.

namespace PacedFeed.Batching

section Sizes

variable {merge : Bool} {segments : List (List Message)} {emitted : List Batch}

theorem Carries.size_le {segment : List Message} {batch : Batch} (h : Carries merge segment batch) :
    batch.size ≤ segment.length := by
  rw [Batch.size, h.messages]
  split
  · exact Message.length_mergeRuns_le segment
  · exact Nat.le_refl _

-- Merging can only make fewer messages.
theorem sum_size_le (h : List.Forall₂ (Carries merge) segments emitted) :
    (emitted.map Batch.size).sum ≤ segments.flatten.length := by
  induction h with
  | nil => exact Nat.le_refl 0
  | cons hc _ ih =>
      rw [List.map_cons, List.sum_cons, List.flatten_cons, List.length_append]
      exact Nat.add_le_add hc.size_le ih

theorem sum_size_eq (h : List.Forall₂ (Carries false) segments emitted) :
    (emitted.map Batch.size).sum = segments.flatten.length := by
  have hmessages : emitted.flatMap Batch.messages = segments.flatten := flatMap_messages h
  rw [← hmessages, List.length_flatMap]
  rfl

end Sizes

-- A message that is dropped was a repeated one, and a repeated one was received.
theorem counters_ordered_preserved : Preserved fun state _ =>
    state.batcher.skipped ≤ state.batcher.repeated ∧
      state.batcher.repeated ≤ state.batcher.received where
  receive state _ message h := by
    obtain ⟨hreceived, hskipped, hrepeated⟩ := state.batcher.counters_receive message
    have hle : (if state.batcher.discards message = true then 1 else 0) ≤
        if message.id ∈ state.batcher.pendingIds then 1 else 0 := by
      by_cases hm : message.id ∈ state.batcher.pendingIds
      · rw [if_pos hm]
        split <;> omega
      · simp [Batcher.discards, hm]
    have hone : (if message.id ∈ state.batcher.pendingIds then 1 else 0) ≤ 1 := by
      split <;> omega
    rw [hreceived, hskipped, hrepeated]
    omega
  emit state _ count trigger _ _ h := by
    obtain ⟨hreceived, hskipped, hrepeated⟩ :=
      state.batcher.received_emitOldest count trigger state.now
    rw [hreceived, hskipped, hrepeated]
    exact h
  configure _ _ _ _ h := h
  advance _ _ _ h := h

theorem counters_ordered_run {config : BatcherConfig} {start : Instant} {batcher : Batcher}
    (hb : Batcher.create config start = .ok batcher) (steps : List Step) :
    let state := run ⟨batcher, start⟩ steps
    state.batcher.skipped ≤ state.batcher.repeated ∧
      state.batcher.repeated ≤ state.batcher.received := by
  obtain ⟨_, rfl⟩ := Batcher.create_eq_ok_iff.mp hb
  exact counters_ordered_preserved.run ⟨Nat.le_refl 0, Nat.le_refl 0⟩ steps

-- What was received went into batches, was skipped or is still pending.
theorem counters_run {config : BatcherConfig} {start : Instant} {batcher : Batcher}
    (hb : Batcher.create config start = .ok batcher) (steps : List Step) :
    let state := run ⟨batcher, start⟩ steps
    let past := history ⟨batcher, start⟩ steps
    state.batcher.received = (steps.flatMap Step.messages).length ∧
      state.batcher.received =
        state.batcher.processed + state.batcher.skipped + state.batcher.pending.size ∧
      state.batcher.emitted = ((batches past).map Batch.size).sum ∧
      state.batcher.emitted ≤ state.batcher.processed ∧
      (config.merge = false → state.batcher.emitted = state.batcher.processed) := by
  intro state past
  have h := partitioned_run hb steps
  have hreceived : state.batcher.received = (arrived past).length := h.received
  have hdropped : (arrived past).length = (kept past).length + state.batcher.skipped := h.dropped
  have hprocessed : state.batcher.processed = (sources past).flatten.length := h.processed
  have hemitted : state.batcher.emitted = ((batches past).map Batch.size).sum := h.emitted
  have hkept : (kept past).length =
      (sources past).flatten.length + state.batcher.pending.toList.length := by
    rw [h.kept_eq, List.length_append]
  rw [Fifo.length_toList] at hkept
  refine ⟨?_, by omega, hemitted, ?_, fun hmerge => ?_⟩
  · rw [hreceived, arrived_history]
  · rw [hemitted, hprocessed]
    exact sum_size_le h.carries
  · rw [hemitted, hprocessed]
    exact sum_size_eq (hmerge ▸ h.carries)

-- With dedup off, everything that comes in is kept.
theorem kept_preserved : PreservedByTraffic fun state past =>
    state.batcher.config.dedup = false ∧ kept past = arrived past where
  receive state past message h := by
    have hdiscards : state.batcher.discards message = false := by
      rw [Batcher.discards, h.1, Bool.false_and]
    refine ⟨by rw [Batcher.config_receive]; exact h.1, ?_⟩
    rw [kept_append, arrived_append, h.2, hdiscards]
    rfl
  emit state past count trigger _ _ h := by
    refine ⟨by rw [Batcher.config_emitOldest]; exact h.1, ?_⟩
    rw [kept_append, arrived_append, h.2]
    rfl
  advance _ _ _ h := h

theorem kept_eq_messages {config : BatcherConfig} {start : Instant} {batcher : Batcher}
    (hb : Batcher.create config start = .ok batcher) (hd : config.dedup = false)
    (steps : List Step) (hs : ∀ step ∈ steps, step.isSetting = false) :
    kept (history ⟨batcher, start⟩ steps) = steps.flatMap Step.messages := by
  obtain ⟨_, rfl⟩ := Batcher.create_eq_ok_iff.mp hb
  rw [← arrived_history ⟨.new config start, start⟩]
  exact (kept_preserved.run ⟨hd, rfl⟩ steps hs).2

end PacedFeed.Batching
