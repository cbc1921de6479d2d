import PacedFeed.Proofs.Batcher.Run

-- Which repeated messages a batcher notices.

namespace PacedFeed.Batching

-- Whether a batch took a message with the id along.
def Event.takes (id : String) : Event → Prop
  | .arrival .. => False
  | .emission source _ => ∃ message ∈ source, message.id = id

-- A message with the id has come in, and no batch has taken one with it along since.
def Fresh (id : String) (past : List Event) : Prop :=
  ∃ message discarded after, (.arrival message discarded :: after) <:+ past ∧
    message.id = id ∧ ∀ event ∈ after, ¬event.takes id

theorem not_fresh_nil (id : String) : ¬Fresh id [] := by
  rintro ⟨message, discarded, after, hsuffix, -⟩
  exact absurd (List.suffix_nil.mp hsuffix) (List.cons_ne_nil _ _)

theorem fresh_concat_iff (id : String) (past : List Event) (event : Event) :
    Fresh id (past ++ [event]) ↔
      (∃ message discarded, event = .arrival message discarded ∧ message.id = id) ∨
        (Fresh id past ∧ ¬event.takes id) := by
  constructor
  · rintro ⟨message, discarded, after, hsuffix, hid, hafter⟩
    obtain hnil | ⟨before, he, hbefore⟩ := List.suffix_concat_iff.mp hsuffix
    · exact absurd hnil (List.cons_ne_nil _ _)
    · cases before with
      | nil =>
          obtain ⟨he, -⟩ := List.cons.inj he
          exact .inl ⟨message, discarded, he.symm, hid⟩
      | cons first before =>
          obtain ⟨rfl, rfl⟩ := List.cons.inj he
          refine .inr ⟨⟨message, discarded, before, hbefore, hid, ?_⟩, hafter event (by simp)⟩
          intro other hm
          exact hafter other (List.mem_append_left _ hm)
  · rintro (⟨message, discarded, rfl, hid⟩ |
      ⟨⟨message, discarded, after, hsuffix, hid, hafter⟩, hn⟩)
    · exact ⟨message, discarded, [], List.suffix_append _ _, hid, by simp⟩
    · refine ⟨message, discarded, after ++ [event], ?_, hid, ?_⟩
      · exact List.suffix_concat_iff.mpr (.inr ⟨_, rfl, hsuffix⟩)
      · intro other hm
        rcases List.mem_append.mp hm with hm | hm
        · exact hafter other hm
        · rwa [List.mem_singleton.mp hm]

-- The set of pending ids holds those that are fresh, and no others.
def Noticing (state : Batching) (past : List Event) : Prop :=
  ∀ id, id ∈ state.batcher.pendingIds ↔ Fresh id past

theorem noticing_preserved : Preserved Noticing where
  receive state past message h id := by
    simp [fresh_concat_iff, ← h id, Event.takes]
  emit state past count trigger _ _ h id := by
    simp [fresh_concat_iff, ← h id, Event.takes]
  configure _ _ _ _ h := h
  advance _ _ _ h := h

theorem noticing_run {config : BatcherConfig} {start : Instant} {batcher : Batcher}
    (hb : Batcher.create config start = .ok batcher) (steps : List Step) :
    Noticing (run ⟨batcher, start⟩ steps) (history ⟨batcher, start⟩ steps) := by
  obtain ⟨_, rfl⟩ := Batcher.create_eq_ok_iff.mp hb
  refine noticing_preserved.run (fun id => ?_) steps
  simp [Batcher.new, not_fresh_nil]

-- A message whose id is pending is noticed as a repeat exactly if that id is fresh. Otherwise it
-- passes for a new one, even with dedup on.
theorem repeat_noticed_iff_fresh {config : BatcherConfig} {start : Instant} {batcher : Batcher}
    (hb : Batcher.create config start = .ok batcher) (steps : List Step) :
    let before := (run ⟨batcher, start⟩ steps).batcher
    let past := history ⟨batcher, start⟩ steps
    ((∀ waiting ∈ before.pending.toList, waiting.id ∈ before.pendingIds) ↔
      ∀ waiting ∈ before.pending.toList, Fresh waiting.id past) ∧
    ∀ waiting ∈ before.pending.toList, ∀ message : Message, message.id = waiting.id →
      let after := ((run ⟨batcher, start⟩ steps).step (.add message)).batcher
      (Fresh message.id past →
        after.repeated = before.repeated + 1 ∧
        (before.config.dedup = true →
          after.skipped = before.skipped + 1 ∧ after.pending.toList = before.pending.toList)) ∧
      (¬Fresh message.id past →
        after.repeated = before.repeated ∧ after.skipped = before.skipped ∧
        after.pending.toList = before.pending.toList ++ [message]) := by
  intro before past
  have h : ∀ id, id ∈ before.pendingIds ↔ Fresh id past := noticing_run hb steps
  refine ⟨forall₂_congr fun waiting _ => h waiting.id, ?_⟩
  intro waiting _ message _ after
  obtain ⟨_, hs, hr⟩ : _ ∧ after.skipped = _ ∧ after.repeated = _ := before.counters_receive message
  have hp : after.pending.toList = _ := before.toList_pending_receive message
  rw [← h message.id]
  constructor
  · intro hm
    refine ⟨by rw [hr, if_pos hm], fun hd => ?_⟩
    have hdiscards : before.discards message = true := by simp [Batcher.discards, hd, hm]
    exact ⟨by rw [hs, if_pos hdiscards], by rw [hp, if_pos hdiscards, List.append_nil]⟩
  · intro hm
    have hdiscards : ¬before.discards message = true := by simp [Batcher.discards, hm]
    exact ⟨by rw [hr, if_neg hm, Nat.add_zero], by rw [hs, if_neg hdiscards, Nat.add_zero],
      by rw [hp, if_neg hdiscards]⟩

theorem repeat_noticed_after_add :
    let message : Message := ⟨"a", .user, .chunk, "x", 0, []⟩
    let before := (run ⟨.new {} 0, 0⟩ [.add message]).batcher
    let after := ((run ⟨.new {} 0, 0⟩ [.add message]).step (.add message)).batcher
    Batcher.create {} 0 = .ok (.new {} 0) ∧ message ∈ before.pending.toList ∧
      Fresh message.id (history ⟨.new {} 0, 0⟩ [.add message]) ∧
      after.repeated = before.repeated + 1 ∧ after.skipped = before.skipped + 1 ∧
      after.pending.toList = before.pending.toList := by
  intro message before after
  have hb : Batcher.create {} 0 = .ok (.new {} 0) := Batcher.create_eq_ok_iff.mpr ⟨rfl, rfl⟩
  have hbefore : before = (Batcher.new {} 0).receive message := rfl
  have hm : message ∈ before.pending.toList := by
    rw [hbefore, Batcher.toList_pending_receive]
    simp [Batcher.discards, Batcher.new]
  have hdedup : before.config.dedup = true := by
    rw [hbefore, Batcher.config_receive]
    rfl
  have hfresh : Fresh message.id (history ⟨.new {} 0, 0⟩ [.add message]) :=
    ⟨message, _, [], List.suffix_refl _, rfl, by simp⟩
  obtain ⟨hnoticed, -⟩ :=
    (repeat_noticed_iff_fresh hb [.add message]).2 message hm message rfl
  obtain ⟨hr, hs⟩ := hnoticed hfresh
  exact ⟨hb, hm, hfresh, hr, hs hdedup⟩

-- With room for one full batch and time to come, a poll emits that batch alone.
theorem poll_of_one_full {batcher : Batcher} (now : Instant)
    (hle : batcher.config.maxBatchSize ≤ batcher.pending.size)
    (hlt : batcher.pending.size < 2 * batcher.config.maxBatchSize)
    (hi : 0 < batcher.config.interval) :
    (batcher.poll now).2 = (batcher.emitOldest batcher.config.maxBatchSize .size now).2 := by
  have hcount : batcher.pending.size / batcher.config.maxBatchSize = 1 :=
    Nat.div_eq_of_lt_le (by omega) (by omega)
  have hdue : (batcher.emitOldest batcher.config.maxBatchSize .size now).2.isDue now = false := by
    obtain ⟨-, -, -, he⟩ :=
      batcher.counters_emitOldest batcher.config.maxBatchSize .size now
    rw [Batcher.isDue, Batcher.config_emitOldest, he, Instant.since_self]
    exact decide_eq_false (Nat.not_le.mpr hi)
  simp only [Batcher.poll, hcount, Batcher.emitFull, hdue, Bool.false_eq_true, if_false]

-- A message that stays behind a batch with its id is no longer among the pending ids.
theorem poll_forgets {batcher : Batcher} {first second third : Message} (now : Instant)
    (hp : batcher.pending.toList = [first, second, third]) (hid : third.id = first.id)
    (hmax : batcher.config.maxBatchSize = 2) (hi : 0 < batcher.config.interval) :
    (batcher.poll now).2.config = batcher.config ∧
      (batcher.poll now).2.pending.toList = [third] ∧
      third.id ∉ (batcher.poll now).2.pendingIds := by
  have hsize : batcher.pending.size = 3 := by rw [← Fifo.length_toList, hp]; rfl
  rw [poll_of_one_full now (by omega) (by omega) hi, hmax, Batcher.config_emitOldest,
    Batcher.toList_pending_emitOldest, hp, Batcher.mem_pendingIds_emitOldest, hp]
  exact ⟨rfl, rfl, fun h => h.2 first List.mem_cons_self hid.symm⟩

-- Two messages of three go out and leave one with the id of the first behind. A fourth with that
-- id is then taken for a new one.
theorem repeat_unnoticed_after_split :
    let chunk : String → Message := fun id => ⟨id, .assistant, .chunk, "x", 0, []⟩
    let config : BatcherConfig := { maxBatchSize := 2, dedup := false, merge := false }
    let state := run ⟨.new config 0, 0⟩
      [.addAll [chunk "a", chunk "b", chunk "a"], .poll, .setDedup true]
    let after := (state.step (.add (chunk "a"))).batcher
    state.batcher.config.dedup = true ∧ state.batcher.pending.toList = [chunk "a"] ∧
      after.pending.toList = [chunk "a", chunk "a"] ∧
      after.repeated = state.batcher.repeated ∧ after.skipped = state.batcher.skipped := by
  intro chunk config state after
  generalize hfilled : [chunk "a", chunk "b", chunk "a"].foldl Batcher.receive (.new config 0) =
    filled
  have hlist : filled.pending.toList = [chunk "a", chunk "b", chunk "a"] := by
    simp [← hfilled, Batcher.discards, Batcher.new, config]
  have hconfig : filled.config = config := by simp [← hfilled, Batcher.new]
  obtain ⟨-, hp, hid⟩ := poll_forgets 0 hlist rfl (by rw [hconfig]) (by rw [hconfig]; decide)
  obtain ⟨hdedup, hpending, hids⟩ := (filled.poll 0).2.pending_setDedup true
  rw [← hpending] at hp
  rw [← hids] at hid
  have hstate : state = ⟨(filled.poll 0).2.setDedup true, 0⟩ := by
    rw [← hfilled]
    rfl
  have hafter : after = ((filled.poll 0).2.setDedup true).receive (chunk "a") := by
    change (state.step _).batcher = _
    rw [hstate]
    rfl
  have hdiscards : ((filled.poll 0).2.setDedup true).discards (chunk "a") = false := by
    rw [Batcher.discards, decide_eq_false hid, Bool.and_false]
  obtain ⟨-, hs, hr⟩ := ((filled.poll 0).2.setDedup true).counters_receive (chunk "a")
  rw [hafter, hstate]
  refine ⟨hdedup, hp, ?_, ?_, ?_⟩
  · rw [Batcher.toList_pending_receive, hp, hdiscards, if_neg Bool.false_ne_true]
    rfl
  · rw [hr, if_neg hid, Nat.add_zero]
  · rw [hs, hdiscards, if_neg Bool.false_ne_true, Nat.add_zero]

end PacedFeed.Batching
