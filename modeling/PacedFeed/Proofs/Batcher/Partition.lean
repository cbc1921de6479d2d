import Mathlib.Data.List.Forall2
import PacedFeed.Proofs.Batcher.Run
import PacedFeed.Proofs.Message.Merge

-- What a batcher emits is what it kept, cut into consecutive segments.

namespace PacedFeed.Batching

namespace Event

def message? : Event → Option Message
  | .arrival message _ => some message
  | _ => none

def kept? : Event → Option Message
  | .arrival message false => some message
  | _ => none

def source? : Event → Option (List Message)
  | .emission source _ => some source
  | _ => none

def batch? : Event → Option Batch
  | .emission _ batch => some batch
  | _ => none

end Event

def arrived (events : List Event) : List Message :=
  events.filterMap Event.message?

-- The messages that came in and were not dropped, in the order in which they came.
def kept (events : List Event) : List Message :=
  events.filterMap Event.kept?

def sources (events : List Event) : List (List Message) :=
  events.filterMap Event.source?

def batches (events : List Event) : List Batch :=
  events.filterMap Event.batch?

@[simp] theorem arrived_append (first second : List Event) :
    arrived (first ++ second) = arrived first ++ arrived second :=
  List.filterMap_append

@[simp] theorem kept_append (first second : List Event) :
    kept (first ++ second) = kept first ++ kept second :=
  List.filterMap_append

@[simp] theorem sources_append (first second : List Event) :
    sources (first ++ second) = sources first ++ sources second :=
  List.filterMap_append

@[simp] theorem batches_append (first second : List Event) :
    batches (first ++ second) = batches first ++ batches second :=
  List.filterMap_append

@[simp] theorem arrived_arrivals (batcher : Batcher) (messages : List Message) :
    arrived (arrivals batcher messages) = messages := by
  induction messages generalizing batcher with
  | nil => rfl
  | cons message messages ih => exact congrArg (message :: ·) (ih (batcher.receive message))

@[simp] theorem arrived_emissions (pending : List Message) (emitted : List Batch) :
    arrived (emissions pending emitted) = [] := by
  induction emitted generalizing pending with
  | nil => rfl
  | cons batch emitted ih => exact ih _

@[simp] theorem batches_arrivals (batcher : Batcher) (messages : List Message) :
    batches (arrivals batcher messages) = [] := by
  induction messages generalizing batcher with
  | nil => rfl
  | cons message messages ih => exact ih (batcher.receive message)

@[simp] theorem batches_emissions (pending : List Message) (emitted : List Batch) :
    batches (emissions pending emitted) = emitted := by
  induction emitted generalizing pending with
  | nil => rfl
  | cons batch emitted ih => exact congrArg (batch :: ·) (ih _)

theorem arrived_happen (state : Batching) (step : Step) :
    arrived (state.happen step) = step.messages := by
  cases step with
  | add message => exact arrived_arrivals state.batcher [message]
  | addAll messages => exact arrived_arrivals state.batcher messages
  | poll | flush => exact arrived_emissions _ _
  | _ => rfl

theorem arrived_history (state : Batching) (steps : List Step) :
    arrived (state.history steps) = steps.flatMap Step.messages := by
  induction steps using List.reverseRecOn with
  | nil => rfl
  | append_singleton steps step ih =>
      simp only [history] at ih
      simp [history, ih, arrived_happen]

theorem kept_sublist_arrived (events : List Event) : (kept events).Sublist (arrived events) := by
  induction events with
  | nil => exact .slnil
  | cons event events ih =>
      cases event with
      | arrival message discarded =>
          cases discarded with
          | false => exact ih.cons_cons message
          | true => exact ih.cons message
      | emission source batch => exact ih

section ReceiveAll

variable (batcher : Batcher) (messages : List Message)

-- Messages that are not dropped line up behind those that are waiting.
theorem toList_pending_foldl_receive :
    (messages.foldl Batcher.receive batcher).pending.toList =
      batcher.pending.toList ++ kept (arrivals batcher messages) := by
  induction messages generalizing batcher with
  | nil => exact (List.append_nil _).symm
  | cons message messages ih =>
      rw [List.foldl_cons, ih, Batcher.toList_pending_receive, List.append_assoc, arrivals]
      cases batcher.discards message with
      | false => rfl
      | true => rfl

theorem kept_arrivals_of_dedup_eq_false (h : batcher.config.dedup = false) :
    kept (arrivals batcher messages) = messages := by
  induction messages generalizing batcher with
  | nil => rfl
  | cons message messages ih =>
      have hd : batcher.discards message = false := by rw [Batcher.discards, h, Bool.false_and]
      have hrest := ih (batcher.receive message) (by rwa [Batcher.config_receive])
      rw [arrivals, hd]
      exact congrArg (message :: ·) hrest

end ReceiveAll

-- A batch is made of the messages of one segment, merged if the settings ask for it.
structure Carries (merge : Bool) (segment : List Message) (batch : Batch) : Prop where
  ne_nil : segment ≠ []
  sourceCount : batch.sourceCount = segment.length
  messages : batch.messages = if merge then Message.mergeRuns segment else segment

theorem Carries.messages_ne_nil {merge : Bool} {segment : List Message} {batch : Batch}
    (h : Carries merge segment batch) : batch.messages ≠ [] := by
  rw [h.messages]
  split
  · rw [ne_eq, Message.mergeRuns_eq_nil_iff]
    exact h.ne_nil
  · exact h.ne_nil

-- So is one that takes some of the oldest pending messages along.
theorem carries_emitOldest (batcher : Batcher) {count : Nat} (trigger : BatchTrigger)
    (now : Instant) (hpos : 0 < count) (hle : count ≤ batcher.pending.toList.length) :
    Carries batcher.config.merge (batcher.pending.toList.take count)
      (batcher.emitOldest count trigger now).1 := by
  rw [Batcher.batch_emitOldest]
  refine ⟨?_, rfl, rfl⟩
  rw [ne_eq, List.take_eq_nil_iff, not_or]
  exact ⟨by omega, List.ne_nil_of_length_pos (by omega)⟩

-- And so is one that takes all of them.
theorem carries_emitAll (batcher : Batcher) (trigger : BatchTrigger) (now : Instant)
    (hne : batcher.pending.toList ≠ []) :
    ∃ batch, (batcher.emitAll? trigger now).1 = some batch ∧ batch.trigger = trigger ∧
      batch.seq = batcher.batches + 1 ∧ batch.emittedAt = now ∧
      Carries batcher.config.merge batcher.pending.toList batch := by
  have hempty : ¬batcher.pending.isEmpty = true := fun h => hne ((Fifo.isEmpty_iff _).mp h)
  have hlen := Fifo.length_toList batcher.pending
  have hpos : 0 < batcher.pending.size := hlen ▸ List.length_pos_iff.mpr hne
  have hbatch := batcher.batch_emitOldest batcher.pending.size trigger now
  have hcarries := carries_emitOldest batcher trigger now hpos (Nat.le_of_eq hlen.symm)
  rw [List.take_of_length_le (Nat.le_of_eq hlen)] at hcarries
  rw [Batcher.emitAll?, if_neg hempty]
  refine ⟨_, rfl, ?_, ?_, ?_, hcarries⟩
  · rw [hbatch]
  · rw [hbatch]
  · rw [hbatch]

theorem forall_messages_ne_nil {merge : Bool} {segments : List (List Message)}
    {emitted : List Batch} (h : List.Forall₂ (Carries merge) segments emitted) :
    ∀ batch ∈ emitted, batch.messages ≠ [] := by
  induction h with
  | nil => simp
  | cons hc _ ih => exact List.forall_mem_cons.mpr ⟨hc.messages_ne_nil, ih⟩

theorem messages_ne_nil_of_emitAll (batcher : Batcher) (trigger : BatchTrigger) (now : Instant) :
    ∀ batch ∈ (batcher.emitAll? trigger now).1, batch.messages ≠ [] := by
  intro batch hm
  by_cases hne : batcher.pending.toList = []
  · rw [Batcher.emitAll_of_nil _ _ _ hne] at hm
    cases hm
  · obtain ⟨emitted, he, -, -, -, hcarries⟩ := carries_emitAll batcher trigger now hne
    obtain rfl : emitted = batch := Option.some.inj (he.symm.trans hm)
    exact hcarries.messages_ne_nil

theorem messages_ne_nil_of_emitFull (now : Instant) {batcher : Batcher} {count : Nat}
    (hpos : 0 < batcher.config.maxBatchSize)
    (hle : count * batcher.config.maxBatchSize ≤ batcher.pending.toList.length) :
    ∀ batch ∈ (batcher.emitFull now count).1, batch.messages ≠ [] := by
  induction count generalizing batcher with
  | zero => exact fun _ hm => absurd hm List.not_mem_nil
  | succ count ih =>
      rw [Nat.succ_mul] at hle
      have hfirst : batcher.config.maxBatchSize ≤ batcher.pending.toList.length := by omega
      have hnext : (batcher.emitFull now (count + 1)).1 =
          (batcher.emitOldest batcher.config.maxBatchSize .size now).1 ::
            ((batcher.emitOldest batcher.config.maxBatchSize .size now).2.emitFull now count).1 :=
        rfl
      rw [hnext]
      refine List.forall_mem_cons.mpr ⟨?_, ih ?_ ?_⟩
      · exact (carries_emitOldest batcher .size now hpos hfirst).messages_ne_nil
      · rwa [Batcher.config_emitOldest]
      · rw [Batcher.config_emitOldest, Batcher.toList_pending_emitOldest, List.length_drop]
        omega

-- Nothing is emitted empty.
theorem messages_ne_nil_of_poll (batcher : Batcher) (now : Instant) :
    ∀ batch ∈ (batcher.poll now).1, batch.messages ≠ [] := by
  have hfull : ∀ batch ∈ (batcher.emitFull now
      (batcher.pending.size / batcher.config.maxBatchSize)).1, batch.messages ≠ [] := by
    rcases Nat.eq_zero_or_pos batcher.config.maxBatchSize with hz | hpos
    · rw [hz, Nat.div_zero]
      exact fun _ hm => absurd hm List.not_mem_nil
    · refine messages_ne_nil_of_emitFull now hpos ?_
      rw [Fifo.length_toList]
      exact Nat.div_mul_le_self _ _
  simp only [Batcher.poll]
  split
  · intro batch hm
    rcases List.mem_append.mp hm with hm | hm
    · exact hfull batch hm
    · exact messages_ne_nil_of_emitAll _ .interval now batch (Option.mem_toList.mp hm)
  · exact hfull

theorem flatMap_messages {merge : Bool} {segments : List (List Message)} {emitted : List Batch}
    (h : List.Forall₂ (Carries merge) segments emitted) :
    emitted.flatMap Batch.messages =
      if merge then segments.flatMap Message.mergeRuns else segments.flatten := by
  induction h with
  | nil => cases merge <;> rfl
  | cons hc _ ih =>
      rw [List.flatMap_cons, List.flatMap_cons, List.flatten_cons, ih, hc.messages]
      split <;> rfl

-- The state and the past of a batcher that was built with or without merging.
structure Partitioned (merge : Bool) (state : Batching) (past : List Event) : Prop where
  merges : state.batcher.config.merge = merge
  kept_eq : kept past = (sources past).flatten ++ state.batcher.pending.toList
  carries : List.Forall₂ (Carries merge) (sources past) (batches past)
  seqs : (batches past).map Batch.seq = List.range' 1 (batches past).length
  count : state.batcher.batches = (batches past).length
  processed : state.batcher.processed = (sources past).flatten.length
  emitted : state.batcher.emitted = ((batches past).map Batch.size).sum
  received : state.batcher.received = (arrived past).length
  dropped : (arrived past).length = (kept past).length + state.batcher.skipped
  ordered : (batches past).Pairwise fun first second => first.emittedAt ≤ second.emittedAt
  emittedAt_le : ∀ batch ∈ batches past, batch.emittedAt ≤ state.now

theorem partitioned_new (config : BatcherConfig) (start : Instant) :
    Partitioned config.merge ⟨.new config start, start⟩ [] where
  merges := rfl
  kept_eq := rfl
  carries := .nil
  seqs := rfl
  count := rfl
  processed := rfl
  emitted := rfl
  received := rfl
  dropped := rfl
  ordered := .nil
  emittedAt_le := by simp [batches]

theorem Partitioned.receive {merge : Bool} {state : Batching} {past : List Event}
    (h : Partitioned merge state past) (message : Message) :
    Partitioned merge { state with batcher := state.batcher.receive message }
      (past ++ [.arrival message (state.batcher.discards message)]) := by
  obtain ⟨hr, hs, _⟩ := state.batcher.counters_receive message
  obtain ⟨hp, hb, he, _⟩ := state.batcher.emitted_receive message
  have hk : kept [.arrival message (state.batcher.discards message)] =
      if state.batcher.discards message then [] else [message] := by
    cases state.batcher.discards message <;> rfl
  have harrived : arrived [.arrival message (state.batcher.discards message)] = [message] := rfl
  have hsources : sources [.arrival message (state.batcher.discards message)] = [] := rfl
  have hbatches : batches [.arrival message (state.batcher.discards message)] = [] := rfl
  constructor <;> simp only [arrived_append, kept_append, sources_append, batches_append, hsources,
    hbatches, hk, List.append_nil, Batcher.config_receive, Batcher.toList_pending_receive]
  · exact h.merges
  · rw [h.kept_eq, List.append_assoc]
  · exact h.carries
  · exact h.seqs
  · exact hb.trans h.count
  · exact hp.trans h.processed
  · exact he.trans h.emitted
  · rw [hr, h.received, List.length_append, harrived, List.length_singleton]
  · rw [hs, List.length_append, List.length_append, harrived, List.length_singleton, h.dropped]
    cases state.batcher.discards message with
    | false => simp only [Bool.false_eq_true, ite_false, List.length_singleton]; omega
    | true => simp only [ite_true, List.length_nil]; omega
  · exact h.ordered
  · exact h.emittedAt_le

theorem Partitioned.emit {merge : Bool} {state : Batching} {past : List Event}
    (h : Partitioned merge state past) (count : Nat) (trigger : BatchTrigger)
    (hpos : 0 < count) (hle : count ≤ state.batcher.pending.toList.length) :
    Partitioned merge
      { state with batcher := (state.batcher.emitOldest count trigger state.now).2 }
      (past ++ [.emission (state.batcher.pending.toList.take count)
        (state.batcher.emitOldest count trigger state.now).1]) := by
  obtain ⟨hp, hb, he, _⟩ := state.batcher.counters_emitOldest count trigger state.now
  obtain ⟨hr, hs, _⟩ := state.batcher.received_emitOldest count trigger state.now
  have hbatch := state.batcher.batch_emitOldest count trigger state.now
  have hcarries := carries_emitOldest state.batcher trigger state.now hpos hle
  rw [h.merges] at hcarries
  generalize hout : state.batcher.emitOldest count trigger state.now = out at *
  generalize hsource : state.batcher.pending.toList.take count = source at *
  have harrived : arrived [.emission source out.1] = [] := rfl
  have hk : kept [.emission source out.1] = [] := rfl
  have hsources : sources [.emission source out.1] = [source] := rfl
  have hbatches : batches [.emission source out.1] = [out.1] := rfl
  constructor <;> simp only [arrived_append, kept_append, sources_append, batches_append, hk,
    hsources, hbatches, List.append_nil, List.length_append, List.map_append, List.flatten_append]
  · rw [← hout, Batcher.config_emitOldest]
    exact h.merges
  · rw [h.kept_eq, ← hout, Batcher.toList_pending_emitOldest, ← hsource]
    simp
  · exact List.rel_append h.carries (.cons hcarries .nil)
  · rw [h.seqs, List.length_singleton, List.range'_concat, List.map_singleton, hbatch, h.count,
      Nat.one_mul, Nat.add_comm]
  · rw [hb, h.count]
    rfl
  · rw [hp, h.processed]
    simp
  · rw [he, h.emitted]
    simp
  · rw [hr, h.received, harrived, List.length_nil, Nat.add_zero]
  · rw [hs, harrived, List.length_nil, Nat.add_zero, h.dropped]
  · rw [List.pairwise_append]
    refine ⟨h.ordered, List.pairwise_singleton _ _, ?_⟩
    intro first hf second hsecond
    rw [List.mem_singleton.mp hsecond, hbatch]
    exact h.emittedAt_le first hf
  · intro batch hm
    rcases List.mem_append.mp hm with hm | hm
    · exact h.emittedAt_le batch hm
    · have hnow : batch.emittedAt = state.now := by rw [List.mem_singleton.mp hm, hbatch]
      exact Int.le_of_eq hnow

theorem partitioned_preserved (merge : Bool) : Preserved (Partitioned merge) where
  receive _ _ message h := h.receive message
  emit _ _ count trigger hpos hle h := h.emit count trigger hpos hle
  configure _ _ _ hm h := { h with merges := hm.trans h.merges }
  advance state _ span h := by
    have hle : state.now ≤ state.now + span := Int.le_add_of_nonneg_right (Int.natCast_nonneg span)
    exact { h with emittedAt_le := fun batch hb => Int.le_trans (h.emittedAt_le batch hb) hle }

theorem partitioned_run {config : BatcherConfig} {start : Instant} {batcher : Batcher}
    (hb : Batcher.create config start = .ok batcher) (steps : List Step) :
    Partitioned config.merge (run ⟨batcher, start⟩ steps) (history ⟨batcher, start⟩ steps) := by
  obtain ⟨_, rfl⟩ := Batcher.create_eq_ok_iff.mp hb
  exact (partitioned_preserved config.merge).run (partitioned_new config start) steps

-- The messages that were handed in and not dropped are cut into the segments that the batches
-- carry, one after the other, and what is pending.
theorem batches_partition_kept {config : BatcherConfig} {start : Instant} {batcher : Batcher}
    (hb : Batcher.create config start = .ok batcher) (steps : List Step) :
    let state := run ⟨batcher, start⟩ steps
    let past := history ⟨batcher, start⟩ steps
    (kept past).Sublist (steps.flatMap Step.messages) ∧
    (kept past).length + state.batcher.skipped = (steps.flatMap Step.messages).length ∧
    ∃ segments : List (List Message),
      kept past = segments.flatten ++ state.batcher.pending.toList ∧
      List.Forall₂ (Carries config.merge) segments (batches past) ∧
      (batches past).map Batch.seq = List.range' 1 segments.length ∧
      (∀ batch ∈ batches past, batch.messages ≠ []) ∧
      ((batches past).Pairwise fun first second => first.emittedAt ≤ second.emittedAt) ∧
      state.batcher.batches = segments.length ∧
      state.batcher.processed = (segments.map List.length).sum ∧
      ∀ source now, (state.batcher.metrics source now).averageBatchSize =
        share ((batches past).map Batch.size).sum segments.length := by
  intro state past
  have h := partitioned_run hb steps
  have harrived : arrived past = steps.flatMap Step.messages := arrived_history _ steps
  have hlen : (sources past).length = (batches past).length := h.carries.length_eq
  refine ⟨harrived ▸ kept_sublist_arrived past, ?_, sources past, h.kept_eq, h.carries, ?_,
    forall_messages_ne_nil h.carries, h.ordered, ?_, ?_, ?_⟩
  · rw [← harrived]
    exact h.dropped.symm
  · rw [hlen]
    exact h.seqs
  · exact h.count.trans hlen.symm
  · exact h.processed.trans List.length_flatten
  · intro source now
    rw [hlen, ← h.emitted, ← h.count]
    rfl

theorem batches_partition_kept_settings_changed :
    let message : String → Message := fun id => ⟨id, .tool, .chunk, "x", 0, []⟩
    let config : BatcherConfig := { maxBatchSize := 2 }
    let steps : List Step :=
      [.addAll [message "a", message "b", message "a"], .poll, .setDedup false,
        .add (message "a"), .setMaxBatchSize 7, .advance 20000000, .poll, .add (message "a"),
        .add (message "a"), .flush]
    let state := run ⟨.new config 0, 0⟩ steps
    let past := history ⟨.new config 0, 0⟩ steps
    Batcher.create config 0 = .ok (.new config 0) ∧
    (kept past).length + state.batcher.skipped = 6 ∧
    ∃ segments : List (List Message),
      kept past = segments.flatten ++ state.batcher.pending.toList ∧
      List.Forall₂ (Carries true) segments (batches past) := by
  intro message config steps state past
  have hb : Batcher.create config 0 = .ok (.new config 0) := Batcher.create_eq_ok_iff.mpr ⟨rfl, rfl⟩
  obtain ⟨-, hlen, segments, hkept, hcarries, -⟩ := batches_partition_kept hb steps
  exact ⟨hb, hlen, segments, hkept, hcarries⟩

end PacedFeed.Batching
