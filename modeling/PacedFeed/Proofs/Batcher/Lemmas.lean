import Mathlib.Algebra.GroupWithZero.Nat
import Mathlib.Tactic.Tauto
import PacedFeed.Batcher

-- What one arrival and one emission change in a batcher, field by field.

namespace PacedFeed

theorem BatcherConfig.pos_of_valid {config : BatcherConfig} (h : config.fault? = none) :
    0 < config.intervalMillis ∧ 0 < config.maxBatchSize := by
  unfold fault? at h
  split at h
  · cases h
  · split at h
    · cases h
    · omega

namespace Batcher

theorem create_eq_ok_iff {config : BatcherConfig} {now : Instant} {batcher : Batcher} :
    create config now = .ok batcher ↔ config.fault? = none ∧ batcher = new config now := by
  unfold create
  cases config.fault? with
  | none => simp [eq_comm]
  | some fault => simp

-- Whether a message would be dropped as a duplicate.
def discards (batcher : Batcher) (message : Message) : Bool :=
  batcher.config.dedup && message.id ∈ batcher.pendingIds

section Receive

variable (batcher : Batcher) (message : Message)

@[simp] theorem config_receive : (batcher.receive message).config = batcher.config := by
  unfold receive
  split
  · split <;> rfl
  · rfl

@[simp] theorem toList_pending_receive :
    (batcher.receive message).pending.toList =
      batcher.pending.toList ++ if batcher.discards message then [] else [message] := by
  by_cases hm : message.id ∈ batcher.pendingIds
  · by_cases hd : batcher.config.dedup = true <;> simp [receive, discards, hm, hd]
  · simp [receive, discards, hm]

@[simp] theorem mem_pendingIds_receive (id : String) :
    id ∈ (batcher.receive message).pendingIds ↔ message.id = id ∨ id ∈ batcher.pendingIds := by
  by_cases hm : message.id ∈ batcher.pendingIds
  · have hi : message.id = id → id ∈ batcher.pendingIds := fun he => he ▸ hm
    by_cases hd : batcher.config.dedup = true <;> simpa [receive, hm, hd] using hi
  · simp [receive, hm]

-- The counters of a batcher that a message changes when it comes in.
theorem counters_receive :
    (batcher.receive message).received = batcher.received + 1 ∧
    (batcher.receive message).skipped =
      batcher.skipped + (if batcher.discards message then 1 else 0) ∧
    (batcher.receive message).repeated =
      batcher.repeated + (if message.id ∈ batcher.pendingIds then 1 else 0) := by
  by_cases hm : message.id ∈ batcher.pendingIds
  · by_cases hd : batcher.config.dedup = true <;> simp [receive, discards, hm, hd]
  · simp [receive, discards, hm]

-- What only emissions change.
theorem emitted_receive :
    (batcher.receive message).processed = batcher.processed ∧
    (batcher.receive message).batches = batcher.batches ∧
    (batcher.receive message).emitted = batcher.emitted ∧
    (batcher.receive message).lastEmit = batcher.lastEmit := by
  unfold receive
  split
  · split <;> exact ⟨rfl, rfl, rfl, rfl⟩
  · exact ⟨rfl, rfl, rfl, rfl⟩

theorem stream_receive : (batcher.receive message).stream = batcher.stream := by
  unfold receive
  split
  · split <;> rfl
  · rfl

-- The first message cannot be a repeated one.
theorem receive_new (config : BatcherConfig) (now : Instant) :
    (new config now).receive message =
      { new config now with
        received := 1
        pendingIds := (∅ : Std.HashSet String).insert message.id
        pending := Fifo.empty.push message } :=
  if_neg Std.HashSet.not_mem_empty

end Receive

section ReceiveAll

variable (batcher : Batcher) (messages : List Message)

-- What no message changes, no number of them changes.
theorem foldl_receive_keeps {α : Type} (f : Batcher → α)
    (h : ∀ (batcher : Batcher) (message : Message), f (batcher.receive message) = f batcher) :
    f (messages.foldl receive batcher) = f batcher := by
  induction messages generalizing batcher with
  | nil => rfl
  | cons message messages ih => rw [List.foldl_cons, ih, h]

theorem config_foldl_receive : (messages.foldl receive batcher).config = batcher.config :=
  batcher.foldl_receive_keeps messages Batcher.config config_receive

theorem lastEmit_foldl_receive : (messages.foldl receive batcher).lastEmit = batcher.lastEmit :=
  batcher.foldl_receive_keeps messages Batcher.lastEmit fun batcher message =>
    (batcher.emitted_receive message).2.2.2

end ReceiveAll

section Emit

variable (batcher : Batcher) (count : Nat) (trigger : BatchTrigger) (now : Instant)

theorem emitOldest_eq :
    batcher.emitOldest count trigger now =
      { batcher with pending := (batcher.pending.popMany count).2 }.emit
        (batcher.pending.toList.take count) trigger now := by
  rw [← Fifo.popMany_fst]
  rfl

@[simp] theorem config_emitOldest :
    (batcher.emitOldest count trigger now).2.config = batcher.config := by
  rw [emitOldest_eq]
  rfl

@[simp] theorem toList_pending_emitOldest :
    (batcher.emitOldest count trigger now).2.pending.toList =
      batcher.pending.toList.drop count := by
  rw [emitOldest_eq]
  exact Fifo.toList_popMany_snd _ _

theorem mem_foldl_erase (ids : Std.HashSet String) (source : List Message) (id : String) :
    id ∈ source.foldl (fun ids message => ids.erase message.id) ids ↔
      id ∈ ids ∧ ∀ message ∈ source, message.id ≠ id := by
  induction source generalizing ids with
  | nil => simp
  | cons message source ih =>
      simp only [List.foldl_cons, ih, Std.HashSet.mem_erase, beq_eq_false_iff_ne,
        List.forall_mem_cons]
      tauto

@[simp] theorem mem_pendingIds_emitOldest (id : String) :
    id ∈ (batcher.emitOldest count trigger now).2.pendingIds ↔
      id ∈ batcher.pendingIds ∧
        ∀ message ∈ batcher.pending.toList.take count, message.id ≠ id := by
  rw [emitOldest_eq]
  exact mem_foldl_erase _ _ _

theorem batch_emitOldest :
    (batcher.emitOldest count trigger now).1 =
      { seq := batcher.batches + 1
        messages :=
          if batcher.config.merge then Message.mergeRuns (batcher.pending.toList.take count)
          else batcher.pending.toList.take count
        emittedAt := now
        trigger := trigger
        sourceCount := (batcher.pending.toList.take count).length } := by
  rw [emitOldest_eq]
  rfl

theorem stream_emitOldest :
    (batcher.emitOldest count trigger now).2.stream =
      batcher.stream.send (batcher.emitOldest count trigger now).1 := rfl

-- The counters of a batcher that a batch changes when it goes out.
theorem counters_emitOldest :
    (batcher.emitOldest count trigger now).2.processed =
      batcher.processed + (batcher.pending.toList.take count).length ∧
    (batcher.emitOldest count trigger now).2.batches = batcher.batches + 1 ∧
    (batcher.emitOldest count trigger now).2.emitted =
      batcher.emitted + (batcher.emitOldest count trigger now).1.size ∧
    (batcher.emitOldest count trigger now).2.lastEmit = now := by
  rw [emitOldest_eq]
  exact ⟨rfl, rfl, rfl, rfl⟩

-- What only arrivals change.
theorem received_emitOldest :
    (batcher.emitOldest count trigger now).2.received = batcher.received ∧
    (batcher.emitOldest count trigger now).2.skipped = batcher.skipped ∧
    (batcher.emitOldest count trigger now).2.repeated = batcher.repeated := by
  rw [emitOldest_eq]
  exact ⟨rfl, rfl, rfl⟩

theorem sourceCount_emitOldest (hc : count ≤ batcher.pending.toList.length) :
    (batcher.emitOldest count trigger now).1.sourceCount = count := by
  rw [batch_emitOldest]
  exact List.length_take_of_le hc

end Emit

-- Switching dedup on or off changes nothing but what is done with messages from then on.
theorem pending_setDedup (batcher : Batcher) (enabled : Bool) :
    (batcher.setDedup enabled).config.dedup = enabled ∧
    (batcher.setDedup enabled).pending = batcher.pending ∧
    (batcher.setDedup enabled).pendingIds = batcher.pendingIds := ⟨rfl, rfl, rfl⟩

section Settings

variable (batcher : Batcher)

theorem pending_setMaxBatchSize (size : Nat) :
    (batcher.setMaxBatchSize size).pending = batcher.pending := by
  unfold setMaxBatchSize
  split <;> rfl

theorem maxBatchSize_setMaxBatchSize {size : Nat} (h : 0 < size) :
    (batcher.setMaxBatchSize size).config.maxBatchSize = size := by
  rw [setMaxBatchSize, if_neg (Nat.ne_of_gt h)]

theorem config_setMaxBatchSize {size : Nat} (h : 0 < size) :
    (batcher.setMaxBatchSize size).config = { batcher.config with maxBatchSize := size } := by
  rw [setMaxBatchSize, if_neg (Nat.ne_of_gt h)]

-- Whole milliseconds that fit a word are kept as they are.
theorem config_setInterval {millis : Nat} (h : 0 < millis) (hw : millis < wordLimit) :
    (batcher.setInterval (Duration.ofMillis millis)).config =
      { batcher.config with intervalMillis := millis } := by
  have hmillis : (Duration.ofMillis millis).millis % wordLimit = millis := by
    rw [Duration.ofMillis, Duration.millis, Nat.mul_div_cancel_left _ (by decide),
      Nat.mod_eq_of_lt hw]
  rw [setInterval, hmillis]
  exact congrArg Batcher.config (if_neg (Nat.ne_of_gt h))

theorem pending_setInterval (interval : Duration) :
    (batcher.setInterval interval).pending = batcher.pending := by
  unfold setInterval
  dsimp only
  split <;> rfl

theorem maxBatchSize_setInterval (interval : Duration) :
    (batcher.setInterval interval).config.maxBatchSize = batcher.config.maxBatchSize := by
  unfold setInterval
  dsimp only
  split <;> rfl

end Settings

-- What full batches leave behind.
theorem toList_pending_emitFull (batcher : Batcher) (now : Instant) (count : Nat) :
    (batcher.emitFull now count).2.pending.toList =
      batcher.pending.toList.drop (count * batcher.config.maxBatchSize) := by
  induction count generalizing batcher with
  | zero => simp [emitFull]
  | succ count ih =>
      simp only [emitFull, ih, config_emitOldest, toList_pending_emitOldest, List.drop_drop]
      rw [Nat.succ_mul, Nat.add_comm]

theorem sum_sourceCount_emitFull (batcher : Batcher) (now : Instant) (count : Nat)
    (hc : count * batcher.config.maxBatchSize ≤ batcher.pending.toList.length) :
    ((batcher.emitFull now count).1.map (·.sourceCount)).sum =
      count * batcher.config.maxBatchSize := by
  induction count generalizing batcher with
  | zero => simp [emitFull]
  | succ count ih =>
      rw [Nat.succ_mul] at hc ⊢
      have hle : batcher.config.maxBatchSize ≤ batcher.pending.toList.length := by omega
      simp only [emitFull, List.map_cons, List.sum_cons, sourceCount_emitOldest _ _ _ _ hle]
      rw [ih _ (by simp; omega), config_emitOldest, Nat.add_comm]

section EmitAll

variable (batcher : Batcher) (trigger : BatchTrigger) (now : Instant)

theorem emitAll_of_nil (h : batcher.pending.toList = []) :
    batcher.emitAll? trigger now = (none, batcher) := by
  rw [emitAll?, if_pos ((Fifo.isEmpty_iff _).mpr h)]

-- Nothing is left when everything goes out.
theorem toList_pending_emitAll :
    (batcher.emitAll? trigger now).2.pending.toList = [] := by
  by_cases he : batcher.pending.isEmpty = true
  · simpa only [emitAll?, he, if_true] using (Fifo.isEmpty_iff _).mp he
  · simp only [emitAll?, he, Bool.false_eq_true, if_false, toList_pending_emitOldest]
    rw [← Fifo.length_toList, List.drop_length]

end EmitAll

section Config

variable (batcher : Batcher) (now : Instant)

theorem config_emitFull (count : Nat) : (batcher.emitFull now count).2.config = batcher.config := by
  induction count generalizing batcher with
  | zero => rfl
  | succ count ih => simp only [emitFull, ih, config_emitOldest]

theorem config_emitAll (trigger : BatchTrigger) :
    (batcher.emitAll? trigger now).2.config = batcher.config := by
  unfold emitAll?
  split
  · rfl
  · exact batcher.config_emitOldest _ _ _

theorem config_poll : (batcher.poll now).2.config = batcher.config := by
  simp only [poll]
  split
  · exact (config_emitAll _ now _).trans (batcher.config_emitFull now _)
  · exact batcher.config_emitFull now _

end Config

-- After a poll there is not enough left for a full batch.
theorem size_poll_lt (batcher : Batcher) (now : Instant)
    (hmax : 0 < batcher.config.maxBatchSize) :
    (batcher.poll now).2.pending.size < batcher.config.maxBatchSize := by
  have hmod := Nat.mod_lt batcher.pending.size hmax
  rw [Nat.mod_eq_sub_div_mul, ← Fifo.length_toList, ← List.length_drop,
    ← batcher.toList_pending_emitFull now, Fifo.length_toList, Fifo.length_toList] at hmod
  simp only [poll]
  split
  · rw [← Fifo.length_toList, toList_pending_emitAll]
    exact hmax
  · exact hmod

end Batcher

end PacedFeed
