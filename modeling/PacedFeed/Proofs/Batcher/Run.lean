import PacedFeed.Proofs.Batcher.Lemmas
import PacedFeed.Proofs.Trace

-- Everything that can be done with a batcher, and what happens to messages on the way.

namespace PacedFeed

-- A batcher with the time on its clock.
structure Batching where
  batcher : Batcher
  now : Instant

namespace Batching

inductive Step where
  | add (message : Message)
  | addAll (messages : List Message)
  | poll
  | flush
  | setMaxBatchSize (size : Nat)
  | setInterval (interval : Duration)
  | setDedup (enabled : Bool)
  | advance (span : Duration)

-- A message comes in, or messages go out as a batch.
inductive Event where
  | arrival (message : Message) (discarded : Bool)
  | emission (source : List Message) (batch : Batch)

def step (state : Batching) : Step → Batching
  | .add message => { state with batcher := (state.batcher.add message state.now).2 }
  | .addAll messages => { state with batcher := (state.batcher.addAll messages state.now).2 }
  | .poll => { state with batcher := (state.batcher.poll state.now).2 }
  | .flush => { state with batcher := (state.batcher.flush state.now).2 }
  | .setMaxBatchSize size => { state with batcher := state.batcher.setMaxBatchSize size }
  | .setInterval interval => { state with batcher := state.batcher.setInterval interval }
  | .setDedup enabled => { state with batcher := state.batcher.setDedup enabled }
  | .advance span => { state with now := state.now + span }

-- The messages that a step hands in.
def Step.messages : Step → List Message
  | .add message => [message]
  | .addAll messages => messages
  | _ => []

-- Whether a step changes the settings and nothing else.
def Step.isSetting : Step → Bool
  | .setMaxBatchSize _ | .setInterval _ | .setDedup _ => true
  | _ => false

def arrivals (batcher : Batcher) : List Message → List Event
  | [] => []
  | message :: messages =>
    .arrival message (batcher.discards message) :: arrivals (batcher.receive message) messages

-- Every batch takes as many of the oldest pending messages as it counts.
def emissions (pending : List Message) : List Batch → List Event
  | [] => []
  | batch :: batches =>
    .emission (pending.take batch.sourceCount) batch ::
      emissions (pending.drop batch.sourceCount) batches

-- What a step does to messages. The batches are those that it returns.
def happen (state : Batching) : Step → List Event
  | .add message => arrivals state.batcher [message]
  | .addAll messages => arrivals state.batcher messages
  | .poll => emissions state.batcher.pending.toList (state.batcher.poll state.now).1
  | .flush => emissions state.batcher.pending.toList (state.batcher.flush state.now).1.toList
  | _ => []

def run (state : Batching) (steps : List Step) : Batching :=
  steps.foldl step state

def history (state : Batching) (steps : List Step) : List Event :=
  trace step happen state steps

-- Messages that come in together come in one by one, so what holds before every `add` holds before
-- every message of an `addAll`.
theorem run_map_add (state : Batching) (messages : List Message) :
    run state (messages.map .add) = state.step (.addAll messages) := by
  induction messages generalizing state with
  | nil => rfl
  | cons message messages ih => exact ih (state.step (.add message))

theorem history_map_add (state : Batching) (messages : List Message) :
    history state (messages.map .add) = state.happen (.addAll messages) := by
  induction messages generalizing state with
  | nil => rfl
  | cons message messages ih =>
      have hrest := ih (state.step (.add message))
      exact congrArg (.arrival message (state.batcher.discards message) :: ·) hrest

theorem messages_of_isSetting {step : Step} (h : step.isSetting = true) : step.messages = [] := by
  cases step with
  | setMaxBatchSize | setInterval | setDedup => rfl
  | _ => cases h

-- A step that changes the settings changes the configuration and nothing else. Merging stays as it
-- is, and dedup is only switched off on request.
theorem step_of_isSetting (state : Batching) {step : Step} (h : step.isSetting = true) :
    ∃ config : BatcherConfig,
      state.step step = { state with batcher := { state.batcher with config := config } } ∧
      config.merge = state.batcher.config.merge ∧
      (step ≠ .setDedup false → state.batcher.config.dedup = true → config.dedup = true) := by
  cases step with
  | setMaxBatchSize size =>
      simp only [Batching.step, Batcher.setMaxBatchSize]
      split
      · exact ⟨state.batcher.config, rfl, rfl, fun _ hd => hd⟩
      · exact ⟨_, rfl, rfl, fun _ hd => hd⟩
  | setInterval interval =>
      simp only [Batching.step, Batcher.setInterval]
      split
      · exact ⟨state.batcher.config, rfl, rfl, fun _ hd => hd⟩
      · exact ⟨_, rfl, rfl, fun _ hd => hd⟩
  | setDedup enabled =>
      refine ⟨_, rfl, rfl, fun hs _ => ?_⟩
      cases enabled with
      | true => rfl
      | false => exact absurd rfl hs
  | _ => cases h

theorem happen_of_isSetting (state : Batching) {step : Step} (h : step.isSetting = true) :
    state.happen step = [] := by
  cases step with
  | setMaxBatchSize | setInterval | setDedup => rfl
  | _ => cases h

-- A change of settings moves no message.
theorem history_of_forall_isSetting (state : Batching) {steps : List Step}
    (h : ∀ step ∈ steps, step.isSetting = true) : history state steps = [] := by
  induction steps generalizing state with
  | nil => rfl
  | cons step steps ih =>
      have hrest := ih (state.step step) fun step hm => h step (List.mem_cons_of_mem _ hm)
      have hs := happen_of_isSetting state (h step List.mem_cons_self)
      simp only [history] at hrest
      rw [history, trace, hs, hrest, List.nil_append]

section Induction

variable {motive : Batching → List Event → Prop}

-- The small changes that messages and time make.
structure PreservedByTraffic (motive : Batching → List Event → Prop) : Prop where
  receive : ∀ state seen message, motive state seen →
    motive { state with batcher := state.batcher.receive message }
      (seen ++ [.arrival message (state.batcher.discards message)])
  emit : ∀ state seen count trigger, 0 < count → count ≤ state.batcher.pending.toList.length →
    motive state seen →
    motive { state with batcher := (state.batcher.emitOldest count trigger state.now).2 }
      (seen ++ [.emission (state.batcher.pending.toList.take count)
        (state.batcher.emitOldest count trigger state.now).1])
  advance : ∀ state seen (span : Duration), motive state seen →
    motive { state with now := state.now + span } seen

-- Messages and time leave the settings alone.
theorem preservedByTraffic_of_config (P : BatcherConfig → Prop) :
    PreservedByTraffic fun state _ => P state.batcher.config where
  receive _ _ message h := by rwa [Batcher.config_receive]
  emit _ _ count trigger _ _ h := by rwa [Batcher.config_emitOldest]
  advance _ _ _ h := h

-- The small changes that every step is made of.
structure Preserved (motive : Batching → List Event → Prop) : Prop
    extends PreservedByTraffic motive where
  configure : ∀ state seen config, config.merge = state.batcher.config.merge →
    motive state seen →
    motive { state with batcher := { state.batcher with config := config } } seen

theorem PreservedByTraffic.receiveAll (h : PreservedByTraffic motive) (state : Batching)
    (seen : List Event) (messages : List Message) (hm : motive state seen) :
    motive { state with batcher := messages.foldl Batcher.receive state.batcher }
      (seen ++ arrivals state.batcher messages) := by
  induction messages generalizing state seen with
  | nil => simpa [arrivals] using hm
  | cons message messages ih =>
      have hr := ih _ _ (h.receive state seen message hm)
      simpa only [arrivals, List.foldl_cons, List.append_assoc, List.singleton_append] using hr

-- The batches of a poll that are full have room for none of the messages that are left.
theorem PreservedByTraffic.emitFull (h : PreservedByTraffic motive) (state : Batching)
    (seen : List Event) (count : Nat) (hmax : 0 < state.batcher.config.maxBatchSize)
    (hc : count * state.batcher.config.maxBatchSize ≤ state.batcher.pending.toList.length)
    (hm : motive state seen) :
    motive { state with batcher := (state.batcher.emitFull state.now count).2 }
      (seen ++ emissions state.batcher.pending.toList
        (state.batcher.emitFull state.now count).1) := by
  induction count generalizing state seen with
  | zero => simpa [Batcher.emitFull, emissions] using hm
  | succ count ih =>
      rw [Nat.succ_mul] at hc
      have hle : state.batcher.config.maxBatchSize ≤ state.batcher.pending.toList.length := by omega
      have hone := h.emit state seen _ .size hmax hle hm
      have he := ih _ _ (by simpa using hmax) (by simp; omega) hone
      simpa only [Batcher.emitFull, emissions, Batcher.sourceCount_emitOldest _ _ _ _ hle,
        List.append_assoc, List.singleton_append, Batcher.toList_pending_emitOldest] using he

theorem PreservedByTraffic.emitAll (h : PreservedByTraffic motive) (state : Batching)
    (seen : List Event) (trigger : BatchTrigger) (hm : motive state seen) :
    motive { state with batcher := (state.batcher.emitAll? trigger state.now).2 }
      (seen ++ emissions state.batcher.pending.toList
        (state.batcher.emitAll? trigger state.now).1.toList) := by
  by_cases he : state.batcher.pending.isEmpty = true
  · simpa [Batcher.emitAll?, he, emissions] using hm
  · have hlen := Fifo.length_toList state.batcher.pending
    have hpos : 0 < state.batcher.pending.size := by
      rw [Fifo.isEmpty_iff] at he
      rw [← hlen]
      exact List.length_pos_iff.mpr he
    have hle := Nat.le_of_eq hlen.symm
    have hall := h.emit state seen state.batcher.pending.size trigger hpos hle hm
    simpa only [Batcher.emitAll?, he, Bool.false_eq_true, if_false, Option.toList_some, emissions,
      Batcher.sourceCount_emitOldest _ _ _ _ hle] using hall

theorem emissions_append (pending : List Message) (first second : List Batch) :
    emissions pending (first ++ second) =
      emissions pending first ++
        emissions (pending.drop (first.map (·.sourceCount)).sum) second := by
  induction first generalizing pending with
  | nil => rfl
  | cons batch first ih =>
      simp only [List.cons_append, emissions, ih, List.map_cons, List.sum_cons, List.drop_drop]

theorem PreservedByTraffic.poll (h : PreservedByTraffic motive) (state : Batching)
    (seen : List Event) (hm : motive state seen) :
    motive (state.step .poll) (seen ++ state.happen .poll) := by
  simp only [Batching.step, happen, Batcher.poll]
  generalize hcount : state.batcher.pending.size / state.batcher.config.maxBatchSize = count
  have hc : count * state.batcher.config.maxBatchSize ≤ state.batcher.pending.toList.length := by
    rw [← hcount, Fifo.length_toList]
    exact Nat.div_mul_le_self _ _
  have hfull : motive { state with batcher := (state.batcher.emitFull state.now count).2 }
      (seen ++ emissions state.batcher.pending.toList
        (state.batcher.emitFull state.now count).1) := by
    by_cases hmax : 0 < state.batcher.config.maxBatchSize
    · exact h.emitFull state seen count hmax hc hm
    · have hz : state.batcher.config.maxBatchSize = 0 := by omega
      rw [hz, Nat.div_zero] at hcount
      subst count
      simpa [Batcher.emitFull, emissions] using hm
  split
  · have hall := h.emitAll _ _ .interval hfull
    rw [Batcher.toList_pending_emitFull,
      ← Batcher.sum_sourceCount_emitFull _ state.now _ hc] at hall
    simpa only [emissions_append, List.append_assoc] using hall
  · exact hfull

theorem PreservedByTraffic.step (h : PreservedByTraffic motive) (state : Batching)
    (seen : List Event) (step : Step) (hs : step.isSetting = false) (hm : motive state seen) :
    motive (state.step step) (seen ++ state.happen step) := by
  cases step with
  | add message => exact h.receive state seen message hm
  | addAll messages => exact h.receiveAll state seen messages hm
  | poll => exact h.poll state seen hm
  | flush => exact h.emitAll state seen .flush hm
  | advance span =>
      simp only [Batching.step, happen, List.append_nil]
      exact h.advance state seen span hm
  | setMaxBatchSize | setInterval | setDedup => cases hs

theorem Preserved.step (h : Preserved motive) (state : Batching) (seen : List Event)
    (step : Step) (hm : motive state seen) :
    motive (state.step step) (seen ++ state.happen step) := by
  by_cases hs : step.isSetting = true
  · obtain ⟨config, heq, hmerge, -⟩ := step_of_isSetting state hs
    rw [heq, happen_of_isSetting state hs, List.append_nil]
    exact h.configure state seen config hmerge hm
  · exact h.toPreservedByTraffic.step state seen step (eq_false_of_ne_true hs) hm

-- What the small changes preserve holds after every run.
theorem Preserved.run (h : Preserved motive) {state : Batching} (initial : motive state [])
    (steps : List Step) : motive (state.run steps) (state.history steps) :=
  trace_induction _ _ initial (fun state seen step hm => h.step state seen step hm) steps

-- Settings may change along the way as long as that preserves it too.
theorem PreservedByTraffic.run_of_settings (h : PreservedByTraffic motive) {allowed : Step → Prop}
    (hset : ∀ state seen step, step.isSetting = true → allowed step → motive state seen →
      motive (state.step step) seen)
    {state : Batching} (initial : motive state []) (steps : List Step)
    (hs : ∀ step ∈ steps, allowed step) : motive (state.run steps) (state.history steps) := by
  induction steps using List.reverseRecOn with
  | nil => exact initial
  | append_singleton steps step ih =>
      rw [Batching.run, history, trace_concat, List.foldl_append, List.foldl_cons, List.foldl_nil]
      have hm := ih fun step hm => hs step (List.mem_append_left _ hm)
      by_cases hsetting : step.isSetting = true
      · rw [happen_of_isSetting _ hsetting, List.append_nil]
        exact hset _ _ step hsetting (hs step (by simp)) hm
      · exact h.step _ _ step (eq_false_of_ne_true hsetting) hm

-- As long as the settings are left alone, they need not be looked at.
theorem PreservedByTraffic.run (h : PreservedByTraffic motive) {state : Batching}
    (initial : motive state []) (steps : List Step)
    (hs : ∀ step ∈ steps, step.isSetting = false) :
    motive (state.run steps) (state.history steps) :=
  h.run_of_settings (fun _ _ _ hset hnot _ => absurd hset (Bool.eq_false_iff.mp hnot)) initial
    steps hs

end Induction

end Batching

end PacedFeed
