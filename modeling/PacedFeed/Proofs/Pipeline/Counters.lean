import PacedFeed.Proofs.Batcher.Counters
import PacedFeed.Proofs.Pipeline.Accounts
import PacedFeed.Proofs.Pipeline.Feed

-- The counters in a snapshot add up.

namespace PacedFeed.Pipeline

section Run

variable {config : PipelineConfig} {start : Instant} {coordinator : Coordinator}

-- The messages that were taken in were dropped, have left for the batcher or are still buffered.
theorem ring_counters (hc : Coordinator.create config start = .ok coordinator)
    (steps : List Step) :
    let ring := (run ⟨coordinator, start⟩ steps).coordinator.ring
    let past := history ⟨coordinator, start⟩ steps
    ring.enqueued = (accepted past).length ∧
      ring.enqueued = ring.dropped + ring.dequeued + ring.size ∧
      ring.dequeued = (drained past).length := by
  intro ring past
  obtain ⟨gone, hentered, hledger⟩ := (accounted_run hc steps).balanced
  have haccepted := congrArg List.length hentered
  rw [List.length_map, List.length_append, Fifo.length_toList] at haccepted
  have henqueued : ring.enqueued = gone.length + ring.size := hledger.enqueued
  have hdropped : ring.dropped = (lost past).length := hledger.dropped
  have hdequeued : ring.dequeued = (drained past).length := hledger.dequeued
  have hgone : gone.length = (drained past).length + (lost past).length := hledger.length_gone
  exact ⟨henqueued.trans haccepted.symm, by omega, hdequeued⟩

-- The batcher received what left the ring.
theorem batcher_counters (hc : Coordinator.create config start = .ok coordinator)
    (steps : List Step) :
    let batcher := (run ⟨coordinator, start⟩ steps).coordinator.batcher
    let past := history ⟨coordinator, start⟩ steps
    batcher.received = (drained past).length ∧
      batcher.received = batcher.processed + batcher.skipped + batcher.pending.size ∧
      batcher.skipped ≤ batcher.repeated ∧ batcher.repeated ≤ batcher.received ∧
      batcher.emitted = ((deliveries past).map Batch.size).sum ∧
      batcher.emitted ≤ batcher.processed ∧
      (config.batcher.merge = false → batcher.emitted = batcher.processed) := by
  intro batcher past
  obtain ⟨hb, hbatching⟩ := batcher_run hc steps
  obtain ⟨hreceived, hsplit, hemitted, hle, heq⟩ :=
    Batching.counters_run hb (feeds ⟨coordinator, start⟩ steps)
  obtain ⟨hskipped, hrepeated⟩ :=
    Batching.counters_ordered_run hb (feeds ⟨coordinator, start⟩ steps)
  rw [← hbatching] at hreceived hsplit hemitted hle heq hskipped hrepeated
  have hmessages : _ = drained past := messages_feeds ⟨coordinator, start⟩ steps
  have hbatches : _ = deliveries past := batches_feeds ⟨coordinator, start⟩ steps
  rw [hmessages] at hreceived
  refine ⟨hreceived, hsplit, hskipped, hrepeated, ?_, hle, heq⟩
  rw [← hbatches]
  exact hemitted

-- The window was given what was delivered and keeps the end of it.
theorem window_counters (hc : Coordinator.create config start = .ok coordinator)
    (steps : List Step) :
    let state := (run ⟨coordinator, start⟩ steps).coordinator
    let past := history ⟨coordinator, start⟩ steps
    state.rendered = ((deliveries past).map Batch.size).sum ∧
      state.rendered = state.window.appended ∧
      state.window.size ≤ state.rendered ∧
      state.window.evicted = state.rendered - state.window.size ∧
      state.window.evicted = state.window.baseSeq ∧
      state.rejected = (rejected past).length := by
  intro state past
  have h := accounted_run hc steps
  have hlength : (delivered past).length = ((deliveries past).map Batch.size).sum :=
    List.length_flatMap
  have hrendered : state.rendered = ((deliveries past).map Batch.size).sum := h.rendered_eq
  have happended : state.window.appended = (delivered past).length := h.retains.appended
  have hsize : state.window.size = min (delivered past).length config.window.maxRetained :=
    h.retains.size
  have hbase : state.window.baseSeq = (delivered past).length - config.window.maxRetained :=
    h.retains.baseSeq
  have hevicted : state.window.evicted = state.window.baseSeq := h.evicted_eq
  exact ⟨hrendered, by omega, by omega, by omega, hevicted, h.rejected_eq⟩

end Run

end PacedFeed.Pipeline
