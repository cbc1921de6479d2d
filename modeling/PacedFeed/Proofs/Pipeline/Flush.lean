import PacedFeed.Proofs.Batcher.Duplicates
import PacedFeed.Proofs.Coordinator.Budget
import PacedFeed.Proofs.Pipeline.Accounts
import PacedFeed.Proofs.Pipeline.Feed
import PacedFeed.Proofs.Pipeline.Log

-- A flush delivers all there is, in whatever state the coordinator is.

namespace PacedFeed

namespace Coordinator

section Flush

variable (coordinator : Coordinator) (now : Instant)

theorem dequeueMany_capacity (h : coordinator.ring.size ≤ coordinator.ring.capacity) :
    (coordinator.ring.dequeueMany coordinator.ring.capacity).1 = coordinator.ring.items.toList ∧
      (coordinator.ring.dequeueMany coordinator.ring.capacity).2.items.toList = [] := by
  have hcount : coordinator.ring.items.toList.length ≤ coordinator.ring.capacity := by
    rw [Fifo.length_toList]
    exact h
  rw [Ring.dequeueMany]
  simpa using hcount

-- Where nothing is dropped or merged, a flush makes one batch of all there is.
theorem exists_batch_of_collectAll (hd : coordinator.batcher.config.dedup = false)
    (hm : coordinator.batcher.config.merge = false)
    (hsize : coordinator.ring.size ≤ coordinator.ring.capacity)
    (hne : coordinator.batcher.pending.toList ++ coordinator.ring.items.toList ≠ []) :
    ∃ batch, (coordinator.collectAll now).1 = some batch ∧
      batch.messages = coordinator.batcher.pending.toList ++ coordinator.ring.items.toList := by
  have hpending : (coordinator.fed coordinator.ring.capacity).pending.toList =
      coordinator.batcher.pending.toList ++ coordinator.ring.items.toList := by
    rw [fed, Batching.toList_pending_foldl_receive,
      Batching.kept_arrivals_of_dedup_eq_false _ _ hd, (coordinator.dequeueMany_capacity hsize).1]
  have hmerge : (coordinator.fed coordinator.ring.capacity).config.merge = false := by
    rw [fed, Batcher.config_foldl_receive, hm]
  rw [← hpending] at hne ⊢
  obtain ⟨batch, hb, -, -, -, hcarries⟩ := Batching.carries_emitAll _ .flush now hne
  refine ⟨batch, hb, ?_⟩
  rw [hcarries.messages, hmerge]
  rfl

theorem batcher_flush :
    (coordinator.flush now).2.batcher =
      ((coordinator.fed coordinator.ring.capacity).flush now).2 := by
  rw [flush, Pipeline.batcher_flushFor]

-- A flush leaves nothing waiting.
theorem flush_empties (h : coordinator.ring.size ≤ coordinator.ring.capacity) :
    (coordinator.flush now).2.ring.items.toList = [] ∧
      (coordinator.flush now).2.batcher.pending.toList = [] := by
  have hring := congrArg Channel.ring (coordinator.channel_flushFor now .explicit)
  simp only [channel] at hring
  constructor
  · rw [flush, hring]
    exact (coordinator.dequeueMany_capacity h).2
  · rw [batcher_flush]
    exact Batcher.toList_pending_emitAll _ _ _

theorem lifecycle_flush : (coordinator.flush now).2.lifecycle = coordinator.lifecycle := by
  have hflush := congrArg Status.lifecycle (coordinator.status_flushFor now .explicit)
  simp only [status] at hflush
  rw [flush, hflush]

theorem lifecycle_stop (h : coordinator.lifecycle = .running) :
    (coordinator.stop now).2.lifecycle = .stopped := by
  have hstop := congrArg Status.lifecycle (coordinator.status_stop now)
  rw [if_pos h] at hstop
  exact hstop

end Flush

end Coordinator

namespace Pipeline

section Run

variable {config : PipelineConfig} {start : Instant} {coordinator : Coordinator}

theorem grounded_run (hc : Coordinator.create config start = .ok coordinator)
    (steps : List Step) :
    ∃ past, Batching.Grounded (run ⟨coordinator, start⟩ steps).batching past := by
  obtain ⟨hb, hbatching⟩ := batcher_run hc steps
  rw [hbatching]
  exact ⟨_, Batching.grounded_run hb _⟩

end Run

end Pipeline

end PacedFeed
