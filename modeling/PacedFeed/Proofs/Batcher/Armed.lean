import PacedFeed.Proofs.Batcher.Poll

-- When a batcher says that a poll would emit, and how long it says that this takes.

namespace PacedFeed

namespace Batcher

section Poll

variable {batcher : Batcher} {now : Instant} {full : List Batch} {last : Batcher}

theorem shouldEmit_iff :
    batcher.shouldEmit now = true ↔
      batcher.config.maxBatchSize ≤ batcher.pending.size ∨
        (batcher.pending.toList ≠ [] ∧ batcher.isDue now = true) := by
  rw [← Bool.not_eq_false, shouldEmit_eq_false_iff, not_and_or, not_or, Nat.not_lt,
    Bool.not_eq_false]

theorem FullTurns.prefix_poll (h : FullTurns now batcher full last) :
    full <+: (batcher.poll now).1 := by
  rw [h.poll_eq]
  split
  · exact List.prefix_append _ _
  · exact List.prefix_refl _

-- A poll emits exactly if there is a reason to. Full batches come from the loop, and if it does
-- not turn, the reason is the time.
theorem poll_ne_nil_iff (hsize : 0 < batcher.config.maxBatchSize) :
    (batcher.poll now).1 ≠ [] ↔ batcher.shouldEmit now = true := by
  constructor
  · intro hne
    by_contra hnot
    rw [poll_of_shouldEmit_eq_false batcher now (eq_false_of_ne_true hnot)] at hne
    exact hne rfl
  · intro harmed hnil
    obtain ⟨full, last, h⟩ : ∃ full last, FullTurns now batcher full last :=
      exists_fullTurns_iff.mpr hsize
    have hprefix := h.prefix_poll
    rw [hnil, List.prefix_nil] at hprefix
    subst hprefix
    obtain hle | ⟨hne, hdue⟩ := shouldEmit_iff.mp harmed
    · cases h with
      | done _ hlt => omega
    · obtain ⟨batch, hbatch, -⟩ := h.poll_of_due rfl hne hdue
      rw [hnil] at hbatch
      cases hbatch

-- Only the time makes a poll emit for the interval.
theorem isDue_of_mem_poll (hsize : 0 < batcher.config.maxBatchSize)
    (hinterval : 0 < batcher.config.interval) {batch : Batch}
    (hm : batch ∈ (batcher.poll now).1) (ht : batch.trigger = .interval) :
    batcher.isDue now = true := by
  obtain ⟨full, last, h⟩ : ∃ full last, FullTurns now batcher full last :=
    exists_fullTurns_iff.mpr hsize
  by_contra hnot
  obtain ⟨hpolled, -⟩ := h.poll_of_not_due hinterval fun hall => hnot hall.2.2
  rw [hpolled] at hm
  have htrigger := h.trigger_eq batch hm
  rw [ht] at htrigger
  cases htrigger

-- With something waiting that is less than a full batch, the time alone decides.
theorem poll_ne_nil_iff_isDue (hne : batcher.pending.toList ≠ [])
    (hlt : batcher.pending.size < batcher.config.maxBatchSize) :
    (batcher.poll now).1 ≠ [] ↔ batcher.isDue now = true := by
  rw [poll_ne_nil_iff (by omega), shouldEmit_iff]
  constructor
  · rintro (hle | ⟨-, hdue⟩)
    · omega
    · exact hdue
  · exact fun hdue => .inr ⟨hne, hdue⟩

end Poll

-- What is left of the interval is how long the clock has to move on. If the last emission were
-- still to come, it would be more than that.
theorem isDue_advance_iff {batcher : Batcher} {now : Instant} (h : batcher.lastEmit ≤ now)
    (span : Duration) :
    batcher.isDue (now + span) = true ↔ batcher.timeUntilFlush now ≤ span := by
  have hsince : Instant.since (now + span) batcher.lastEmit =
      Instant.since now batcher.lastEmit + span := by
    unfold Instant.since
    unfold Instant Duration at *
    omega
  rw [isDue, decide_eq_true_eq, timeUntilFlush, hsince]
  exact Nat.sub_le_iff_le_add'.symm

section Add

variable (batcher : Batcher) (messages : List Message) (message : Message) (now : Instant)

theorem config_add : (batcher.add message now).2.config = batcher.config :=
  batcher.config_receive message

-- Taking messages in together answers as taking in the last one does.
theorem addAll_concat :
    batcher.addAll (messages ++ [message]) now =
      (batcher.addAll messages now).2.add message now := by
  simp [addAll, add]

theorem config_addAll : (batcher.addAll messages now).2.config = batcher.config :=
  batcher.config_foldl_receive messages

end Add

end Batcher

namespace Batching

-- The clock has not gone back since the last emission.
theorem lastEmit_le_preserved :
    Preserved fun state _ => state.batcher.lastEmit ≤ state.now where
  receive state _ message h := by
    rw [(state.batcher.emitted_receive message).2.2.2]
    exact h
  emit state _ count trigger _ _ _ := by
    obtain ⟨-, -, -, hnow⟩ := state.batcher.counters_emitOldest count trigger state.now
    exact Int.le_of_eq hnow
  configure _ _ _ _ h := h
  advance _ _ span h := Int.le_trans h (Int.le_add_of_nonneg_right (Int.natCast_nonneg span))

theorem lastEmit_le_run {config : BatcherConfig} {start : Instant} {batcher : Batcher}
    (hb : Batcher.create config start = .ok batcher) (steps : List Step) :
    let state := run ⟨batcher, start⟩ steps
    state.batcher.lastEmit ≤ state.now := by
  obtain ⟨-, rfl⟩ := Batcher.create_eq_ok_iff.mp hb
  exact lastEmit_le_preserved.run (Int.le_refl start) steps

-- A batcher says that it would emit exactly if a poll at that time emits. It says so when asked and
-- when messages come in, kept or not. With less than a full batch waiting, a poll emits exactly if
-- the time that was left has passed, and then all that is waiting.
theorem poll_emits_iff_armed {config : BatcherConfig} {start : Instant} {batcher : Batcher}
    (hb : Batcher.create config start = .ok batcher) (steps : List Step) :
    let state := run ⟨batcher, start⟩ steps
    let before := state.batcher
    (∀ now, before.shouldEmit now = true ↔ (before.poll now).1 ≠ []) ∧
    (∀ message now, (before.add message now).1 = true ↔
      ((before.add message now).2.poll now).1 ≠ []) ∧
    (∀ messages now, messages ≠ [] →
      ((before.addAll messages now).1 = true ↔
        ((before.addAll messages now).2.poll now).1 ≠ [])) ∧
    (0 < before.pending.size → before.pending.size < before.config.maxBatchSize →
      ∀ span : Duration,
        let later := state.step (.advance span)
        let polled := later.batcher.poll later.now
        (polled.1 ≠ [] ↔ before.timeUntilFlush state.now ≤ span) ∧
        (before.timeUntilFlush state.now ≤ span →
          ∃ batch, polled.1 = [batch] ∧ batch.trigger = .interval ∧
            Carries config.merge before.pending.toList batch ∧
            polled.2.pending.toList = [])) := by
  intro state before
  obtain ⟨-, hsize⟩ := settings_pos_run hb steps
  have hadd (added : Batcher) (hconfig : added.config = before.config) (message : Message)
      (now : Instant) :
      (added.add message now).1 = true ↔ ((added.add message now).2.poll now).1 ≠ [] := by
    have hpos : 0 < (added.add message now).2.config.maxBatchSize := by
      rwa [Batcher.config_add, hconfig]
    exact (Batcher.poll_ne_nil_iff hpos).symm
  refine ⟨fun now => (Batcher.poll_ne_nil_iff hsize).symm, hadd before rfl, ?_, ?_⟩
  · intro messages now hne
    obtain ⟨messages, message, rfl⟩ := (List.eq_nil_or_concat messages).resolve_left hne
    rw [List.concat_eq_append, Batcher.addAll_concat]
    exact hadd _ (before.config_addAll messages now) message now
  · intro hpos hlt span later polled
    have hne : before.pending.toList ≠ [] := by
      rwa [← List.length_pos_iff, Fifo.length_toList]
    have hdue : before.isDue later.now = true ↔ before.timeUntilFlush state.now ≤ span :=
      Batcher.isDue_advance_iff (lastEmit_le_run hb steps) span
    refine ⟨(Batcher.poll_ne_nil_iff_isDue hne hlt).trans hdue, fun hle => ?_⟩
    have hmerge : before.config.merge = config.merge := (partitioned_run hb steps).merges
    rw [← hmerge]
    exact (Batcher.FullTurns.done before hlt).poll_of_due rfl hne (hdue.mpr hle)

theorem poll_emits_iff_armed_in_time :
    let chunk : String → Message := fun id => ⟨id, .user, .chunk, "x", 0, []⟩
    let config : BatcherConfig := { maxBatchSize := 3 }
    let steps : List Step := [.addAll [chunk "a", chunk "a"], .advance 10000000]
    let state := run ⟨.new config 0, 0⟩ steps
    let refilled := state.batcher.addAll [chunk "b", chunk "a"] 16000000
    let polled := state.batcher.poll (state.now + 6000000)
    Batcher.create config 0 = .ok (.new config 0) ∧
    state.batcher.pending.toList = [chunk "a"] ∧
    state.batcher.timeUntilFlush state.now = 6000000 ∧
    (refilled.1 = true ↔ (refilled.2.poll 16000000).1 ≠ []) ∧
    (state.batcher.poll (state.now + 5999999)).1 = [] ∧
    (∃ batch, polled.1 = [batch] ∧ batch.messages = [chunk "a"]) ∧
    polled.2.pending.toList = [] := by
  intro chunk config steps state refilled polled
  have hb : Batcher.create config 0 = .ok (.new config 0) := Batcher.create_eq_ok_iff.mpr ⟨rfl, rfl⟩
  have hbatcher : state.batcher =
      [chunk "a", chunk "a"].foldl Batcher.receive (.new config 0) := rfl
  have hpending : state.batcher.pending.toList = [chunk "a"] := by
    rw [hbatcher]
    simp [Batcher.discards, Batcher.new, config, chunk]
  have hsize : state.batcher.pending.size = 1 := by
    rw [← Fifo.length_toList, hpending, List.length_singleton]
  have hconfig : state.batcher.config = config := by
    rw [hbatcher, Batcher.config_foldl_receive]
    rfl
  have hlast : state.batcher.lastEmit = 0 := by
    rw [hbatcher, Batcher.lastEmit_foldl_receive]
    rfl
  have hleft : state.batcher.timeUntilFlush state.now = 6000000 := by
    rw [Batcher.timeUntilFlush, hconfig, hlast]
    decide +kernel
  obtain ⟨-, -, haddAll, hadvance⟩ := poll_emits_iff_armed hb steps
  have hlater := hadvance (by rw [hsize]; decide) (by rw [hsize, hconfig]; decide)
  obtain ⟨hearly, -⟩ := hlater 5999999
  obtain ⟨batch, hbatch, -, hcarries, hnil⟩ := (hlater 6000000).2 (Nat.le_of_eq hleft)
  refine ⟨hb, hpending, hleft, haddAll _ 16000000 (List.cons_ne_nil _ _), ?_, ⟨batch, hbatch, ?_⟩,
    hnil⟩
  · by_contra hne
    have hle := hearly.mp hne
    rw [hleft] at hle
    exact absurd hle (by decide)
  · rw [hcarries.messages, hpending]
    rfl

end Batching

end PacedFeed
