import PacedFeed.Proofs.Batcher.Partition

-- What a poll emits: every full batch there is, and the rest if there is none and it is time.

namespace PacedFeed

theorem BatcherConfig.interval_pos {config : BatcherConfig} (h : 0 < config.intervalMillis) :
    0 < config.interval :=
  Nat.mul_pos (by decide) h

namespace Batcher

-- The loop that emits full batches. It goes on as long as there are enough messages for one, and
-- then comes to an end with the batches that it emitted and the batcher that is left.
inductive FullTurns (now : Instant) : Batcher → List Batch → Batcher → Prop
  | done (batcher : Batcher) (h : batcher.pending.size < batcher.config.maxBatchSize) :
      FullTurns now batcher [] batcher
  | turn (batcher : Batcher) (batches : List Batch) (last : Batcher)
      (h : batcher.config.maxBatchSize ≤ batcher.pending.size)
      (rest : FullTurns now (batcher.emitOldest batcher.config.maxBatchSize .size now).2 batches
        last) :
      FullTurns now batcher
        ((batcher.emitOldest batcher.config.maxBatchSize .size now).1 :: batches) last

section FullTurns

variable {batcher last : Batcher} {now : Instant} {full : List Batch}

theorem size_emitOldest (batcher : Batcher) (count : Nat) (trigger : BatchTrigger) (now : Instant) :
    (batcher.emitOldest count trigger now).2.pending.size = batcher.pending.size - count := by
  rw [← Fifo.length_toList, toList_pending_emitOldest, List.length_drop, Fifo.length_toList]

theorem FullTurns.unique {others : List Batch} {other : Batcher}
    (h : FullTurns now batcher full last) (h' : FullTurns now batcher others other) :
    others = full ∧ other = last := by
  induction h generalizing others other with
  | done batcher hlt =>
      cases h' with
      | done => exact ⟨rfl, rfl⟩
      | turn _ _ _ hle => omega
  | turn batcher batches last hle _ ih =>
      cases h' with
      | done _ hlt => omega
      | turn _ _ _ _ hrest =>
          obtain ⟨rfl, rfl⟩ := ih hrest
          exact ⟨rfl, rfl⟩

theorem FullTurns.config_eq (h : FullTurns now batcher full last) :
    last.config = batcher.config := by
  induction h with
  | done => rfl
  | turn batcher batches last _ _ ih => rw [ih, config_emitOldest]

theorem FullTurns.size_lt (h : FullTurns now batcher full last) :
    last.pending.size < batcher.config.maxBatchSize := by
  induction h with
  | done batcher hlt => exact hlt
  | turn batcher batches last _ _ ih => rwa [config_emitOldest] at ih

-- The turns are those that a poll counts beforehand.
theorem fullTurns_emitFull {count : Nat} (hpos : 0 < batcher.config.maxBatchSize)
    (hcount : batcher.pending.size / batcher.config.maxBatchSize = count) :
    FullTurns now batcher (batcher.emitFull now count).1 (batcher.emitFull now count).2 := by
  induction count generalizing batcher with
  | zero =>
      rcases Nat.div_eq_zero_iff.mp hcount with hzero | hlt
      · omega
      · exact .done batcher hlt
  | succ count ih =>
      have hle : batcher.config.maxBatchSize ≤ batcher.pending.size := by
        by_contra hlt
        rw [Nat.div_eq_of_lt (by omega)] at hcount
        omega
      refine .turn batcher _ _ hle (ih (by simpa using hpos) ?_)
      rw [Nat.div_eq_sub_div hpos hle] at hcount
      rw [config_emitOldest, size_emitOldest]
      omega

-- It comes to an end exactly if a full batch has room for a message.
theorem exists_fullTurns_iff :
    (∃ full last, FullTurns now batcher full last) ↔ 0 < batcher.config.maxBatchSize := by
  constructor
  · rintro ⟨full, last, h⟩
    exact Nat.lt_of_le_of_lt (Nat.zero_le _) h.size_lt
  · intro hpos
    exact ⟨_, _, fullTurns_emitFull hpos rfl⟩

-- Every turn takes a full batch from the front.
theorem FullTurns.exists_segments (h : FullTurns now batcher full last) :
    ∃ segments : List (List Message),
      batcher.pending.toList = segments.flatten ++ last.pending.toList ∧
      (∀ segment ∈ segments, segment.length = batcher.config.maxBatchSize) ∧
      List.Forall₂ (Batching.Carries batcher.config.merge) segments full := by
  induction h with
  | done batcher _ => exact ⟨[], rfl, by simp, .nil⟩
  | turn batcher batches last hle rest ih =>
      obtain ⟨segments, hflatten, hlength, hcarries⟩ := ih
      have hpos : 0 < batcher.config.maxBatchSize :=
        exists_fullTurns_iff.mp ⟨_, _, .turn batcher batches last hle rest⟩
      rw [← Fifo.length_toList] at hle
      rw [toList_pending_emitOldest] at hflatten
      rw [config_emitOldest] at hlength hcarries
      refine ⟨batcher.pending.toList.take batcher.config.maxBatchSize :: segments, ?_, ?_, ?_⟩
      · rw [List.flatten_cons, List.append_assoc, ← hflatten, List.take_append_drop]
      · exact List.forall_mem_cons.mpr ⟨List.length_take_of_le hle, hlength⟩
      · exact .cons (Batching.carries_emitOldest batcher .size now hpos hle) hcarries

-- What the loop emits, it emits for its size and now.
theorem FullTurns.trigger_eq (h : FullTurns now batcher full last) :
    ∀ batch ∈ full, batch.trigger = .size := by
  induction h with
  | done => simp
  | turn batcher batches last _ _ ih =>
      refine List.forall_mem_cons.mpr ⟨?_, ih⟩
      rw [batch_emitOldest]

theorem FullTurns.lastEmit_eq (h : FullTurns now batcher full last) :
    (full = [] ∧ last = batcher) ∨ last.lastEmit = now := by
  induction h with
  | done => exact .inl ⟨rfl, rfl⟩
  | turn batcher batches last _ _ ih =>
      right
      rcases ih with ⟨-, rfl⟩ | hnow
      · exact (batcher.counters_emitOldest _ .size now).2.2.2
      · exact hnow

end FullTurns

section Poll

variable (batcher : Batcher) (now : Instant)

theorem shouldEmit_eq_false_iff :
    batcher.shouldEmit now = false ↔
      batcher.pending.size < batcher.config.maxBatchSize ∧
        (batcher.pending.toList = [] ∨ batcher.isDue now = false) := by
  rw [shouldEmit, Bool.or_eq_false_iff, decide_eq_false_iff_not, Nat.not_le, ← Fifo.isEmpty_iff]
  cases batcher.pending.isEmpty <;> simp

-- Without a reason to emit, a poll does nothing.
theorem poll_of_shouldEmit_eq_false (h : batcher.shouldEmit now = false) :
    batcher.poll now = ([], batcher) := by
  obtain ⟨hlt, hrest⟩ := (batcher.shouldEmit_eq_false_iff now).mp h
  rw [poll, Nat.div_eq_of_lt hlt, emitFull]
  rcases hrest with hnil | hnot
  · have hempty := (Fifo.isEmpty_iff _).mpr hnil
    simp [emitAll?, hempty]
  · simp [hnot]

variable {batcher now} {full : List Batch} {last : Batcher}

theorem FullTurns.poll_eq (h : FullTurns now batcher full last) :
    batcher.poll now =
      if last.isDue now then
        (full ++ (last.emitAll? .interval now).1.toList, (last.emitAll? .interval now).2)
      else (full, last) := by
  obtain ⟨hfull, hlast⟩ :=
    h.unique (fullTurns_emitFull (exists_fullTurns_iff.mp ⟨full, last, h⟩) rfl)
  rw [poll]
  simp only [hfull, hlast]

-- The loop leaves nothing to do, unless it has not turned and it is time.
theorem FullTurns.poll_of_not_due (h : FullTurns now batcher full last)
    (hpos : 0 < batcher.config.interval)
    (hnot : ¬(full = [] ∧ batcher.pending.toList ≠ [] ∧ batcher.isDue now = true)) :
    batcher.poll now = (full, last) ∧ last.shouldEmit now = false := by
  have hlt := h.size_lt
  rcases h.lastEmit_eq with ⟨rfl, rfl⟩ | hnow
  · have hquiet : last.shouldEmit now = false := by
      rw [shouldEmit_eq_false_iff]
      refine ⟨hlt, ?_⟩
      by_contra hboth
      rw [not_or, Bool.not_eq_false] at hboth
      exact hnot ⟨rfl, hboth⟩
    exact ⟨poll_of_shouldEmit_eq_false last now hquiet, hquiet⟩
  · have hdue : last.isDue now = false := by
      rw [isDue, hnow, Instant.since_self, h.config_eq]
      exact decide_eq_false (Nat.not_le.mpr hpos)
    refine ⟨by rw [h.poll_eq, hdue, if_neg Bool.false_ne_true], ?_⟩
    rw [shouldEmit_eq_false_iff, h.config_eq]
    exact ⟨hlt, .inr hdue⟩

-- If it has not turned and it is time, all that is waiting goes out.
theorem FullTurns.poll_of_due (h : FullTurns now batcher full last) (hnone : full = [])
    (hne : batcher.pending.toList ≠ []) (hdue : batcher.isDue now = true) :
    ∃ batch, (batcher.poll now).1 = [batch] ∧ batch.trigger = .interval ∧
      Batching.Carries batcher.config.merge batcher.pending.toList batch ∧
      (batcher.poll now).2.pending.toList = [] := by
  cases h with
  | turn => cases hnone
  | done _ hlt =>
      have hall := batcher.toList_pending_emitAll .interval now
      obtain ⟨batch, hbatch, htrigger, -, -, hcarries⟩ :=
        Batching.carries_emitAll batcher .interval now hne
      rw [poll, Nat.div_eq_of_lt hlt, emitFull]
      simp only [hdue, if_true, List.nil_append]
      refine ⟨batch, ?_, htrigger, hcarries, hall⟩
      rw [hbatch, Option.toList_some]

theorem shouldEmit_poll (hsize : 0 < batcher.config.maxBatchSize)
    (hinterval : 0 < batcher.config.interval) : (batcher.poll now).2.shouldEmit now = false := by
  obtain ⟨full, last, h⟩ : ∃ full last, FullTurns now batcher full last :=
    exists_fullTurns_iff.mpr hsize
  by_cases hdue : full = [] ∧ batcher.pending.toList ≠ [] ∧ batcher.isDue now = true
  · obtain ⟨batch, -, -, -, hnil⟩ := h.poll_of_due hdue.1 hdue.2.1 hdue.2.2
    rw [shouldEmit_eq_false_iff, config_poll]
    exact ⟨batcher.size_poll_lt now hsize, .inl hnil⟩
  · obtain ⟨heq, hquiet⟩ := h.poll_of_not_due hinterval hdue
    rwa [heq]

end Poll

end Batcher

namespace Batching

-- No request leaves a size or an interval of zero.
theorem settings_pos_run {config : BatcherConfig} {start : Instant} {batcher : Batcher}
    (hb : Batcher.create config start = .ok batcher) (steps : List Step) :
    let state := run ⟨batcher, start⟩ steps
    0 < state.batcher.config.intervalMillis ∧ 0 < state.batcher.config.maxBatchSize := by
  obtain ⟨hvalid, rfl⟩ := Batcher.create_eq_ok_iff.mp hb
  have htraffic := preservedByTraffic_of_config fun settings =>
    0 < settings.intervalMillis ∧ 0 < settings.maxBatchSize
  have hall : ∀ step ∈ steps, (fun _ : Step => True) step := fun _ _ => trivial
  refine htraffic.run_of_settings ?_ (BatcherConfig.pos_of_valid hvalid) steps hall
  intro state _ step hsetting _ h
  cases step with
  | setMaxBatchSize size =>
      simp only [Batching.step, Batcher.setMaxBatchSize]
      split
      · exact h
      · exact ⟨h.1, Nat.pos_of_ne_zero (by assumption)⟩
  | setInterval interval =>
      simp only [Batching.step, Batcher.setInterval]
      split
      · exact h
      · exact ⟨Nat.pos_of_ne_zero (by assumption), h.2⟩
  | setDedup enabled => exact h
  | add | addAll | poll | flush | advance => cases hsetting

-- The last emission, or the beginning if there was none.
theorem lastEmit_preserved (start : Instant) : Preserved fun state past =>
    state.batcher.lastEmit = ((batches past).getLast?.map Batch.emittedAt).getD start where
  receive state past message h := by
    have hnone : batches [.arrival message (state.batcher.discards message)] = [] := rfl
    rw [batches_append, hnone, List.append_nil, (state.batcher.emitted_receive message).2.2.2]
    exact h
  emit state past count trigger _ _ _ := by
    have hone : batches [.emission (state.batcher.pending.toList.take count)
        (state.batcher.emitOldest count trigger state.now).1] =
        [(state.batcher.emitOldest count trigger state.now).1] := rfl
    rw [batches_append, hone, List.getLast?_concat, Batcher.batch_emitOldest]
    exact (state.batcher.counters_emitOldest count trigger state.now).2.2.2
  configure _ _ _ _ h := h
  advance _ _ _ h := h

theorem lastEmit_run {config : BatcherConfig} {start : Instant} {batcher : Batcher}
    (hb : Batcher.create config start = .ok batcher) (steps : List Step) :
    (run ⟨batcher, start⟩ steps).batcher.lastEmit =
      ((batches (history ⟨batcher, start⟩ steps)).getLast?.map Batch.emittedAt).getD start := by
  obtain ⟨-, rfl⟩ := Batcher.create_eq_ok_iff.mp hb
  exact (lastEmit_preserved start).run rfl steps

-- Full segments in front of less than one are as many as fit.
theorem lengths_of_segments {items rest : List Message} {segments : List (List Message)}
    {size : Nat} (hi : items = segments.flatten ++ rest)
    (hs : ∀ segment ∈ segments, segment.length = size) (hr : rest.length < size) :
    segments.length = items.length / size ∧
      rest = items.drop (items.length - items.length % size) := by
  have hflatten : segments.flatten.length = segments.length * size := by
    rw [List.length_flatten, List.map_eq_replicate_iff.mpr hs, List.sum_replicate_nat]
  have hlength : items.length = segments.length * size + rest.length := by
    rw [hi, List.length_append, hflatten]
  have hsum : rest.length + size * segments.length = items.length := by
    rw [hlength, Nat.mul_comm, Nat.add_comm]
  obtain ⟨hdiv, hmod⟩ :=
    (Nat.div_mod_unique (Nat.lt_of_le_of_lt (Nat.zero_le _) hr)).mpr ⟨hsum, hr⟩
  refine ⟨hdiv.symm, ?_⟩
  rw [hmod, hlength, Nat.add_sub_cancel, hi, List.drop_left' hflatten]

-- A poll emits all full batches of what is waiting, in order. Only if there is none, something is
-- waiting and the interval has passed since the last emission, it emits what there is. Less than
-- a full batch stays, and there is nothing more to do at the same time.
theorem poll_emits_due {config : BatcherConfig} {start : Instant} {batcher : Batcher}
    (hb : Batcher.create config start = .ok batcher) (steps : List Step) (now : Instant) :
    let before := (run ⟨batcher, start⟩ steps).batcher
    let past := history ⟨batcher, start⟩ steps
    let size := before.config.maxBatchSize
    let waiting := before.pending.toList
    let polled := before.poll now
    0 < size ∧ 0 < before.config.intervalMillis ∧
    before.lastEmit = ((batches past).getLast?.map Batch.emittedAt).getD start ∧
    (∃ full last segments,
      (∀ emitted left, Batcher.FullTurns now before emitted left ↔
        emitted = full ∧ left = last) ∧
      waiting = segments.flatten ++ last.pending.toList ∧
      segments.length = waiting.length / size ∧ (∀ segment ∈ segments, segment.length = size) ∧
      List.Forall₂ (Carries config.merge) segments full ∧
      (∀ batch ∈ full, batch.trigger = .size) ∧
      if waiting.length / size = 0 ∧ waiting ≠ [] ∧
          before.config.interval ≤ now.since before.lastEmit then
        ∃ batch, polled.1 = full ++ [batch] ∧ batch.trigger = .interval ∧
          Carries config.merge waiting batch ∧ polled.2.pending.toList = []
      else
        polled = (full, last) ∧
          last.pending.toList = waiting.drop (waiting.length - waiting.length % size)) ∧
    polled.2.pending.size < size ∧ polled.2.shouldEmit now = false ∧
    polled.2.poll now = ([], polled.2) := by
  intro before past size waiting polled
  obtain ⟨hinterval, hsize⟩ : 0 < before.config.intervalMillis ∧ 0 < size :=
    settings_pos_run hb steps
  have hmerge : before.config.merge = config.merge := (partitioned_run hb steps).merges
  obtain ⟨full, last, hturns⟩ : ∃ full last, Batcher.FullTurns now before full last :=
    Batcher.exists_fullTurns_iff.mpr hsize
  have hlt := hturns.size_lt
  obtain ⟨segments, hwaiting, hlengths, hcarries⟩ := hturns.exists_segments
  obtain ⟨hcount, hrest⟩ :=
    lengths_of_segments hwaiting hlengths (by rwa [Fifo.length_toList])
  rw [hmerge] at hcarries
  have hnone : full = [] ↔ waiting.length / size = 0 := by
    rw [← hcount, hcarries.length_eq, List.length_eq_zero_iff]
  have hturned : ∀ emitted left, Batcher.FullTurns now before emitted left ↔
      emitted = full ∧ left = last := by
    intro emitted left
    constructor
    · exact hturns.unique
    · rintro ⟨rfl, rfl⟩
      exact hturns
  have hquiet : polled.2.shouldEmit now = false :=
    Batcher.shouldEmit_poll hsize (BatcherConfig.interval_pos hinterval)
  refine ⟨hsize, hinterval, lastEmit_run hb steps, ⟨full, last, segments, hturned, hwaiting, hcount,
    hlengths, hcarries, hturns.trigger_eq, ?_⟩, before.size_poll_lt now hsize, hquiet,
    polled.2.poll_of_shouldEmit_eq_false now hquiet⟩
  have hdue : before.isDue now = true ↔ before.config.interval ≤ now.since before.lastEmit := by
    rw [Batcher.isDue, decide_eq_true_eq]
  split
  · rename_i hall
    have hfull := hnone.mpr hall.1
    obtain ⟨batch, hbatch, htrigger, hcarried, hnil⟩ :=
      hturns.poll_of_due hfull hall.2.1 (hdue.mpr hall.2.2)
    rw [hmerge] at hcarried
    refine ⟨batch, ?_, htrigger, hcarried, hnil⟩
    rw [hfull]
    exact hbatch
  · rename_i hnot
    rw [← hnone, ← hdue] at hnot
    obtain ⟨hpolled, -⟩ := hturns.poll_of_not_due (BatcherConfig.interval_pos hinterval) hnot
    exact ⟨hpolled, hrest⟩

theorem poll_emits_due_resized :
    let chunk : String → Message := fun id => ⟨id, .assistant, .chunk, "x", 0, []⟩
    let config : BatcherConfig := { maxBatchSize := 9, dedup := false, merge := false }
    let steps : List Step :=
      [.addAll [chunk "a", chunk "b", chunk "a", chunk "c"], .setMaxBatchSize 0,
        .setMaxBatchSize 3, .advance 20000000]
    let before := (run ⟨.new config 0, 0⟩ steps).batcher
    let polled := before.poll 20000000
    Batcher.create config 0 = .ok (.new config 0) ∧
    before.pending.toList.length = 4 ∧ before.config.maxBatchSize = 3 ∧
    (∃ batch, polled.1 = [batch] ∧ batch.trigger = .size ∧
      batch.messages = [chunk "a", chunk "b", chunk "a"]) ∧
    polled.2.pending.toList = [chunk "c"] ∧ polled.2.poll 20000000 = ([], polled.2) := by
  intro chunk config steps before polled
  have hb : Batcher.create config 0 = .ok (.new config 0) := Batcher.create_eq_ok_iff.mpr ⟨rfl, rfl⟩
  have hbefore : before = (([chunk "a", chunk "b", chunk "a", chunk "c"].foldl Batcher.receive
      (.new config 0)).setMaxBatchSize 0).setMaxBatchSize 3 := by
    simp only [before, steps, run, List.foldl_cons, List.foldl_nil, step, Batcher.addAll]
  have hsize : before.config.maxBatchSize = 3 := by
    rw [hbefore]
    exact Batcher.maxBatchSize_setMaxBatchSize _ (by decide)
  have hwaiting : before.pending.toList = [chunk "a", chunk "b", chunk "a", chunk "c"] := by
    rw [hbefore, Batcher.pending_setMaxBatchSize, Batcher.pending_setMaxBatchSize]
    simp [Batcher.discards, Batcher.new, config]
  obtain ⟨-, -, -, ⟨full, last, segments, -, hsegments, hcount, hlengths, hcarries, htrigger, hrest⟩,
    -, -, hagain⟩ := poll_emits_due hb steps 20000000
  have hlength : before.pending.toList.length = 4 := by rw [hwaiting]; rfl
  have hone : segments.length = 1 := by
    rw [hcount, hlength, hsize]
  rw [if_neg (by rw [hlength, hsize]; decide)] at hrest
  obtain ⟨hpolled, hlast⟩ : polled = (full, last) ∧ _ := hrest
  rw [hlength, hsize, hwaiting] at hlast
  obtain ⟨segment, rfl⟩ := List.length_eq_one_iff.mp hone
  obtain ⟨batch, others, hbatch, hnil, rfl⟩ := List.forall₂_cons_left_iff.mp hcarries
  rw [List.forall₂_nil_left_iff.mp hnil] at hpolled htrigger
  have hsegment : [chunk "a", chunk "b", chunk "a"] = segment := by
    rw [hwaiting, hlast, List.flatten_singleton] at hsegments
    exact List.append_cancel_right hsegments
  refine ⟨hb, hlength, hsize, ⟨batch, ?_, htrigger batch List.mem_cons_self, ?_⟩, ?_, hagain⟩
  · rw [hpolled]
  · rw [hbatch.messages, hsegment]
    rfl
  · rw [hpolled, hlast]
    rfl

end Batching

end PacedFeed
