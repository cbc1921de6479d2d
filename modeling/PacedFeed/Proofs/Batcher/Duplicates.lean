import PacedFeed.Proofs.Batcher.Partition
import PacedFeed.Proofs.Batcher.Repeats

-- A message is dropped as a duplicate only while one with its id is waiting.

namespace PacedFeed.Batching

-- Dropping messages loses no id: those that count as repeated are waiting, and those that ever came
-- in are waiting or went out.
structure Grounded (state : Batching) (past : List Event) : Prop where
  pendingIds : ∀ id ∈ state.batcher.pendingIds,
    id ∈ state.batcher.pending.toList.map Message.id
  ids_arrived : ∀ message ∈ arrived past,
    message.id ∈ ((sources past).flatten ++ state.batcher.pending.toList).map Message.id

theorem Grounded.mem_ids_receive {state : Batching} {past : List Event} (h : Grounded state past)
    (message : Message) :
    message.id ∈ (state.batcher.receive message).pending.toList.map Message.id := by
  rw [Batcher.toList_pending_receive, List.map_append, List.mem_append]
  by_cases hd : state.batcher.discards message = true
  · left
    have hm : message.id ∈ state.batcher.pendingIds := by
      rw [Batcher.discards, Bool.and_eq_true] at hd
      exact of_decide_eq_true hd.2
    exact h.pendingIds message.id hm
  · right
    simp [hd]

theorem Grounded.receive {state : Batching} {past : List Event} (h : Grounded state past)
    (message : Message) :
    Grounded { state with batcher := state.batcher.receive message }
      (past ++ [.arrival message (state.batcher.discards message)]) := by
  have hnew := h.mem_ids_receive message
  have hold : ∀ id ∈ state.batcher.pending.toList.map Message.id,
      id ∈ (state.batcher.receive message).pending.toList.map Message.id := by
    intro id hm
    rw [Batcher.toList_pending_receive, List.map_append]
    exact List.mem_append_left _ hm
  have hsources : sources [.arrival message (state.batcher.discards message)] = [] := rfl
  have harrived : arrived [.arrival message (state.batcher.discards message)] = [message] := rfl
  constructor
  · intro id hm
    rcases (state.batcher.mem_pendingIds_receive message id).mp hm with rfl | hm
    · exact hnew
    · exact hold id (h.pendingIds id hm)
  · intro other hm
    rw [sources_append, hsources, List.append_nil, List.map_append, List.mem_append]
    rw [arrived_append, harrived] at hm
    rcases List.mem_append.mp hm with hm | hm
    · have hother := h.ids_arrived other hm
      rw [List.map_append, List.mem_append] at hother
      exact hother.imp_right (hold other.id)
    · rw [List.mem_singleton.mp hm]
      exact .inr hnew

theorem Grounded.emit {state : Batching} {past : List Event} (h : Grounded state past)
    (count : Nat) (trigger : BatchTrigger) :
    Grounded { state with batcher := (state.batcher.emitOldest count trigger state.now).2 }
      (past ++ [.emission (state.batcher.pending.toList.take count)
        (state.batcher.emitOldest count trigger state.now).1]) := by
  constructor
  · intro id hm
    obtain ⟨hid, hnot⟩ := (state.batcher.mem_pendingIds_emitOldest count trigger state.now id).mp hm
    have hpending := h.pendingIds id hid
    rw [← List.take_append_drop count state.batcher.pending.toList, List.map_append] at hpending
    rw [Batcher.toList_pending_emitOldest]
    refine (List.mem_append.mp hpending).resolve_left fun htaken => ?_
    obtain ⟨taken, ht, he⟩ := List.mem_map.mp htaken
    exact hnot taken ht he
  · intro message hm
    have hnone : arrived [.emission (state.batcher.pending.toList.take count)
        (state.batcher.emitOldest count trigger state.now).1] = [] := rfl
    rw [arrived_append, hnone, List.append_nil] at hm
    -- what the batch takes along only changes sides
    have hsources : sources [.emission (state.batcher.pending.toList.take count)
        (state.batcher.emitOldest count trigger state.now).1] =
        [state.batcher.pending.toList.take count] := rfl
    rw [sources_append, hsources, Batcher.toList_pending_emitOldest, List.flatten_append,
      List.flatten_singleton, List.append_assoc, List.take_append_drop]
    exact h.ids_arrived message hm

theorem grounded_preserved : Preserved Grounded where
  receive _ _ message h := h.receive message
  emit _ _ count trigger _ _ h := h.emit count trigger
  configure _ _ _ _ h := ⟨h.pendingIds, h.ids_arrived⟩
  advance _ _ _ h := ⟨h.pendingIds, h.ids_arrived⟩

theorem grounded_run {config : BatcherConfig} {start : Instant} {batcher : Batcher}
    (hb : Batcher.create config start = .ok batcher) (steps : List Step) :
    Grounded (run ⟨batcher, start⟩ steps) (history ⟨batcher, start⟩ steps) := by
  obtain ⟨_, rfl⟩ := Batcher.create_eq_ok_iff.mp hb
  refine grounded_preserved.run ⟨fun id hm => ?_, by simp [arrived]⟩ steps
  simp [Batcher.new] at hm

-- Each of those ids is counted once, each waiting message has one.
theorem Grounded.size_pendingIds_le {state : Batching} {past : List Event}
    (h : Grounded state past) :
    state.batcher.pendingIds.size ≤ state.batcher.pending.size := by
  have hnodup : state.batcher.pendingIds.toList.Nodup :=
    Std.HashSet.distinct_toList.imp ne_of_beq_false
  have hsubset : state.batcher.pendingIds.toList ⊆ state.batcher.pending.toList.map Message.id :=
    fun id hm => h.pendingIds id (Std.HashSet.mem_toList.mp hm)
  have hle := hnodup.length_le_of_subset hsubset
  rwa [Std.HashSet.length_toList, List.length_map, Fifo.length_toList] at hle

-- At that place a message came in and was kept, as the first with its id since a batch last took
-- the id along, and no batch has taken it along yet.
structure Leads (past : List Event) (place : Nat) (message : Message) : Prop where
  arrival : past[place]? = some (.arrival message false)
  first : ¬Fresh message.id (past.take place)
  waiting : ∀ event ∈ past.drop (place + 1), ¬event.takes message.id

-- The messages lead their ids and stand in the order in which they came in.
def InPlace (past : List Event) (messages : List Message) : Prop :=
  ∃ places : List Nat, places.Pairwise (· < ·) ∧ List.Forall₂ (Leads past) places messages

section Leads

variable {past : List Event} {place : Nat} {message : Message}

theorem Leads.lt_length (h : Leads past place message) : place < past.length :=
  (List.getElem?_eq_some_iff.mp h.arrival).1

theorem Leads.fresh (h : Leads past place message) : Fresh message.id past := by
  obtain ⟨hlt, harrival⟩ := List.getElem?_eq_some_iff.mp h.arrival
  refine ⟨message, false, past.drop (place + 1), ?_, rfl, h.waiting⟩
  rw [← harrival, ← List.drop_eq_getElem_cons hlt]
  exact List.drop_suffix place past

theorem Leads.concat (h : Leads past place message) {event : Event} (he : ¬event.takes message.id) :
    Leads (past ++ [event]) place message := by
  have hlt := h.lt_length
  constructor
  · rw [List.getElem?_append_left hlt]
    exact h.arrival
  · rw [List.take_append_of_le_length (Nat.le_of_lt hlt)]
    exact h.first
  · intro other hm
    rw [List.drop_append_of_le_length hlt] at hm
    rcases List.mem_append.mp hm with hm | hm
    · exact h.waiting other hm
    · rwa [List.mem_singleton.mp hm]

theorem Leads.take (h : Leads past place message) {count : Nat} (hc : place < count) :
    Leads (past.take count) place message := by
  constructor
  · rw [List.getElem?_take_of_lt hc]
    exact h.arrival
  · rw [List.take_take, Nat.min_eq_left (Nat.le_of_lt hc)]
    exact h.first
  · intro other hm
    rw [List.drop_take] at hm
    exact h.waiting other (List.mem_of_mem_take hm)

theorem leads_concat (h : ¬Fresh message.id past) :
    Leads (past ++ [.arrival message false]) past.length message := by
  constructor
  · exact List.getElem?_concat_length
  · rwa [List.take_left]
  · intro other hm
    rw [List.drop_eq_nil_of_le (by simp)] at hm
    exact absurd hm List.not_mem_nil

-- No two messages lead the same id, since the later one would not be the first.
theorem Leads.id_ne (h : Leads past place message) {later : Nat} {other : Message}
    (hl : place < later) (ho : Leads past later other) : message.id ≠ other.id := by
  intro he
  have hfresh := (h.take hl).fresh
  rw [he] at hfresh
  exact ho.first hfresh

end Leads

section InPlace

variable {past : List Event} {messages : List Message}

theorem InPlace.exists_leads (h : InPlace past messages) :
    ∀ message ∈ messages, ∃ place, Leads past place message := by
  obtain ⟨places, -, hleads⟩ := h
  induction hleads with
  | nil => simp
  | cons hl _ ih => exact List.forall_mem_cons.mpr ⟨⟨_, hl⟩, ih⟩

theorem InPlace.nodup (h : InPlace past messages) : (messages.map Message.id).Nodup := by
  obtain ⟨places, hordered, hleads⟩ := h
  rw [List.Nodup, List.pairwise_map, List.pairwise_iff_getElem]
  intro i j hi hj hij
  have hlength := hleads.length_eq
  have hplaces := List.pairwise_iff_getElem.mp hordered i j (by omega) (by omega) hij
  exact (hleads.get (by omega) hi).id_ne hplaces (hleads.get (by omega) hj)

theorem InPlace.take (h : InPlace past messages) (count : Nat) :
    InPlace past (messages.take count) := by
  obtain ⟨places, hordered, hleads⟩ := h
  have hkept := hordered.sublist (List.take_sublist count places)
  exact ⟨places.take count, hkept, List.forall₂_take count hleads⟩

theorem InPlace.drop (h : InPlace past messages) (count : Nat) :
    InPlace past (messages.drop count) := by
  obtain ⟨places, hordered, hleads⟩ := h
  have hkept := hordered.sublist (List.drop_sublist count places)
  exact ⟨places.drop count, hkept, List.forall₂_drop count hleads⟩

theorem forall₂_leads_concat {places : List Nat} (h : List.Forall₂ (Leads past) places messages)
    {event : Event} (he : ∀ message ∈ messages, ¬event.takes message.id) :
    List.Forall₂ (Leads (past ++ [event])) places messages := by
  induction h with
  | nil => exact .nil
  | cons hl _ ih =>
      obtain ⟨hfirst, hrest⟩ := List.forall_mem_cons.mp he
      exact .cons (hl.concat hfirst) (ih hrest)

theorem forall₂_leads_lt {places : List Nat} (h : List.Forall₂ (Leads past) places messages) :
    ∀ place ∈ places, place < past.length := by
  induction h with
  | nil => simp
  | cons hl _ ih => exact List.forall_mem_cons.mpr ⟨hl.lt_length, ih⟩

-- An event that takes none of their ids along leaves them in place.
theorem InPlace.concat (h : InPlace past messages) {event : Event}
    (he : ∀ message ∈ messages, ¬event.takes message.id) : InPlace (past ++ [event]) messages := by
  obtain ⟨places, hordered, hleads⟩ := h
  exact ⟨places, hordered, forall₂_leads_concat hleads he⟩

theorem InPlace.arrive (h : InPlace past messages) {message : Message}
    (hf : ¬Fresh message.id past) :
    InPlace (past ++ [.arrival message false]) (messages ++ [message]) := by
  obtain ⟨places, hordered, hleads⟩ := h
  refine ⟨places ++ [past.length], ?_, ?_⟩
  · rw [List.pairwise_append]
    refine ⟨hordered, List.pairwise_singleton _ _, fun place hm last hl => ?_⟩
    rw [List.mem_singleton.mp hl]
    exact forall₂_leads_lt hleads place hm
  · have hkept : ∀ other ∈ messages, ¬(Event.arrival message false).takes other.id :=
      fun _ _ => id
    exact List.rel_append (forall₂_leads_concat hleads hkept) (.cons (leads_concat hf) .nil)

end InPlace

-- What a batch takes along is in place, and so no id goes out twice in it.
def TakesInPlace (before : List Event) : Event → Prop
  | .arrival .. => True
  | .emission source _ => (source.map Message.id).Nodup ∧ InPlace before source

-- The state and the past of a batcher that has dropped duplicates from the start.
structure Deduped (state : Batching) (past : List Event) : Prop where
  dedup : state.batcher.config.dedup = true
  noticing : Noticing state past
  inPlace : InPlace past state.batcher.pending.toList
  taken : Obeys TakesInPlace past

theorem Deduped.receive {state : Batching} {past : List Event} (h : Deduped state past)
    (message : Message) :
    Deduped { state with batcher := state.batcher.receive message }
      (past ++ [.arrival message (state.batcher.discards message)]) := by
  constructor
  · rw [Batcher.config_receive]
    exact h.dedup
  · exact noticing_preserved.receive state past message h.noticing
  · rw [Batcher.toList_pending_receive]
    by_cases hm : message.id ∈ state.batcher.pendingIds
    · have hd : state.batcher.discards message = true := by simp [Batcher.discards, h.dedup, hm]
      rw [hd, if_pos rfl, List.append_nil]
      exact h.inPlace.concat fun _ _ => id
    · have hd : state.batcher.discards message = false := by simp [Batcher.discards, hm]
      rw [hd, if_neg Bool.false_ne_true]
      exact h.inPlace.arrive fun hf => hm ((h.noticing message.id).mpr hf)
  · exact obeys_concat_iff.mpr ⟨h.taken, trivial⟩

theorem Deduped.emit {state : Batching} {past : List Event} (h : Deduped state past)
    (count : Nat) (trigger : BatchTrigger) (hpos : 0 < count)
    (hle : count ≤ state.batcher.pending.toList.length) :
    Deduped { state with batcher := (state.batcher.emitOldest count trigger state.now).2 }
      (past ++ [.emission (state.batcher.pending.toList.take count)
        (state.batcher.emitOldest count trigger state.now).1]) := by
  have hsource := h.inPlace.take count
  constructor
  · rw [Batcher.config_emitOldest]
    exact h.dedup
  · exact noticing_preserved.emit state past count trigger hpos hle h.noticing
  · rw [Batcher.toList_pending_emitOldest]
    -- the ids are distinct, so none of those that stay go out with the batch
    have hnodup := h.inPlace.nodup
    rw [← List.take_append_drop count state.batcher.pending.toList, List.map_append,
      List.nodup_append] at hnodup
    refine (h.inPlace.drop count).concat fun message hm htakes => ?_
    obtain ⟨taken, ht, he⟩ := htakes
    exact hnodup.2.2 taken.id (List.mem_map_of_mem ht) message.id (List.mem_map_of_mem hm) he
  · exact obeys_concat_iff.mpr ⟨h.taken, hsource.nodup, hsource⟩

theorem deduped_preserved : PreservedByTraffic Deduped where
  receive _ _ message h := h.receive message
  emit _ _ count trigger hpos hle h := h.emit count trigger hpos hle
  advance _ _ _ h := ⟨h.dedup, h.noticing, h.inPlace, h.taken⟩

theorem deduped_run {config : BatcherConfig} {start : Instant} {batcher : Batcher}
    (hb : Batcher.create config start = .ok batcher) (hd : config.dedup = true)
    (steps : List Step) (hs : .setDedup false ∉ steps) :
    Deduped (run ⟨batcher, start⟩ steps) (history ⟨batcher, start⟩ steps) := by
  have hnoticing := noticing_run hb []
  obtain ⟨_, rfl⟩ := Batcher.create_eq_ok_iff.mp hb
  have hallowed : ∀ step ∈ steps, step ≠ .setDedup false := fun step hm he => hs (he ▸ hm)
  refine deduped_preserved.run_of_settings ?_ ⟨hd, hnoticing, ⟨[], .nil, .nil⟩, obeys_nil _⟩ steps
    hallowed
  intro state past step hsetting hkept h
  obtain ⟨config, heq, -, hkeeps⟩ := step_of_isSetting state hsetting
  rw [heq]
  exact ⟨hkeeps hkept h.dedup, h.noticing, h.inPlace, h.taken⟩

-- Ids that are in place are fresh.
theorem Deduped.mem_pendingIds_iff {state : Batching} {past : List Event} (h : Deduped state past)
    (hg : Grounded state past) (id : String) :
    id ∈ state.batcher.pendingIds ↔ id ∈ state.batcher.pending.toList.map Message.id := by
  refine ⟨hg.pendingIds id, fun hid => ?_⟩
  obtain ⟨message, hm, rfl⟩ := List.mem_map.mp hid
  obtain ⟨place, hl⟩ := h.inPlace.exists_leads message hm
  exact (h.noticing message.id).mpr hl.fresh

-- A message is dropped only while one with its id is waiting, so no id that came in is lost. If
-- duplicates are dropped from the start, no two waiting messages have one id, and every message
-- that goes out is the first with its id since that id last went out.
theorem dropped_only_if_waiting {config : BatcherConfig} {start : Instant} {batcher : Batcher}
    (hb : Batcher.create config start = .ok batcher) (steps : List Step) :
    let state := run ⟨batcher, start⟩ steps
    let past := history ⟨batcher, start⟩ steps
    let waiting := state.batcher.pending.toList
    (∀ id ∈ state.batcher.pendingIds, id ∈ waiting.map Message.id) ∧
    (∀ message : Message,
      let after := (state.step (.add message)).batcher
      (after.pending.toList = waiting ++ [message] ∧ after.skipped = state.batcher.skipped) ∨
      (after.pending.toList = waiting ∧ after.skipped = state.batcher.skipped + 1 ∧
        message.id ∈ waiting.map Message.id)) ∧
    List.Forall₂ (Carries config.merge) (sources past) (batches past) ∧
    (∀ message ∈ steps.flatMap Step.messages,
      message.id ∈ ((sources past).flatten ++ waiting).map Message.id) ∧
    (state.step .flush).batcher.pendingIds.isEmpty = true ∧
    (config.dedup = true → .setDedup false ∉ steps →
      (waiting.map Message.id).Nodup ∧
      (∀ id, id ∈ state.batcher.pendingIds ↔ id ∈ waiting.map Message.id) ∧
      InPlace past waiting ∧ Obeys TakesInPlace past) := by
  intro state past waiting
  have hg : Grounded state past := grounded_run hb steps
  refine ⟨hg.pendingIds, fun message => ?_, (partitioned_run hb steps).carries, ?_, ?_, ?_⟩
  · intro after
    have hp : after.pending.toList = _ := state.batcher.toList_pending_receive message
    obtain ⟨-, hs, -⟩ : _ ∧ after.skipped = _ ∧ _ := state.batcher.counters_receive message
    by_cases hd : state.batcher.discards message = true
    · rw [if_pos hd] at hs
      rw [if_pos hd, List.append_nil] at hp
      refine .inr ⟨hp, hs, ?_⟩
      rw [Batcher.discards, Bool.and_eq_true] at hd
      exact hg.pendingIds message.id (of_decide_eq_true hd.2)
    · rw [if_neg hd] at hp hs
      exact .inl ⟨hp, hs⟩
  · rw [← arrived_history ⟨batcher, start⟩ steps]
    exact hg.ids_arrived
  · have hflushed : Grounded (state.step .flush) _ := grounded_preserved.step state past .flush hg
    have hnone : (state.step .flush).batcher.pending.toList = [] :=
      state.batcher.toList_pending_emitAll .flush state.now
    rw [Std.HashSet.isEmpty_iff_forall_not_mem]
    intro id hm
    have hid := hflushed.pendingIds id hm
    rw [hnone] at hid
    exact absurd hid List.not_mem_nil
  · intro hdedup hkept
    have hd : Deduped state past := deduped_run hb hdedup steps hkept
    exact ⟨hd.inPlace.nodup, hd.mem_pendingIds_iff hg, hd.inPlace, hd.taken⟩

theorem dropped_only_if_waiting_resized :
    let message : String → Message := fun id => ⟨id, .tool, .chunk, "x", 0, []⟩
    let steps : List Step :=
      [.addAll [message "a", message "b", message "a", message "c"], .setMaxBatchSize 2, .poll,
        .add (message "a"), .add (message "c"), .setDedup true, .advance 16000000]
    let state := run ⟨.new {} 0, 0⟩ steps
    let past := history ⟨.new {} 0, 0⟩ steps
    Batcher.create {} 0 = .ok (.new {} 0) ∧
    (∀ id ∈ state.batcher.pendingIds, id ∈ state.batcher.pending.toList.map Message.id) ∧
    .setDedup false ∉ steps ∧
    (state.batcher.pending.toList.map Message.id).Nodup ∧ Obeys TakesInPlace past := by
  intro message steps state past
  have hb : Batcher.create {} 0 = .ok (.new {} 0) := Batcher.create_eq_ok_iff.mpr ⟨rfl, rfl⟩
  have hkept : .setDedup false ∉ steps := by simp [steps]
  obtain ⟨hids, -, -, -, -, hdeduped⟩ := dropped_only_if_waiting hb steps
  obtain ⟨hnodup, -, -, htaken⟩ := hdeduped rfl hkept
  exact ⟨hb, hids, hkept, hnodup, htaken⟩

end PacedFeed.Batching
