import PacedFeed.Coordinator

-- Messages that are turned away make no difference to those that are let in.

namespace PacedFeed

-- The characters that Unicode counts as white space.
def whiteSpace : List Nat :=
  [0x9, 0xa, 0xb, 0xc, 0xd, 0x20, 0x85, 0xa0, 0x1680, 0x2000, 0x2001, 0x2002, 0x2003, 0x2004,
    0x2005, 0x2006, 0x2007, 0x2008, 0x2009, 0x200a, 0x2028, 0x2029, 0x202f, 0x205f, 0x3000]

theorem isBlank_iff (c : Char) : isBlank c = true ↔ c.toNat ∈ whiteSpace := by
  simp only [isBlank, whiteSpace, decide_eq_true_eq, List.mem_cons, List.not_mem_nil, or_false]
  omega

theorem isBlankText_iff (text : String) :
    isBlankText text = true ↔ ∀ c ∈ text.toList, c.toNat ∈ whiteSpace := by
  simp only [isBlankText, List.all_eq_true, isBlank_iff]

-- A blank id is looked at before the size of the content.
theorem Message.fault?_eq_some_iff (message : Message) (limit : Nat) (fault : IngestError) :
    message.fault? limit = some fault ↔
      (fault = .emptyId ∧ ∀ c ∈ message.id.toList, c.toNat ∈ whiteSpace) ∨
      (fault = .contentTooLarge message.id message.content.utf8ByteSize limit ∧
        ¬(∀ c ∈ message.id.toList, c.toNat ∈ whiteSpace) ∧
        limit < message.content.utf8ByteSize) := by
  rw [← isBlankText_iff, fault?]
  by_cases hblank : isBlankText message.id = true
  · simp [hblank, eq_comm]
  · by_cases hlong : limit < message.content.utf8ByteSize
    · simp [hblank, hlong, eq_comm]
    · simp [hblank, hlong]

namespace Message

-- The messages that pass the checks.
def admitted (limit : Nat) (messages : List Message) : List Message :=
  messages.filter fun message => (message.fault? limit).isNone

-- What is wrong with those that do not.
def faults (limit : Nat) (messages : List Message) : List IngestError :=
  messages.filterMap fun message => message.fault? limit

section Checks

variable {limit : Nat} {message : Message} (messages : List Message)

theorem admitted_cons_of_none (h : message.fault? limit = none) :
    admitted limit (message :: messages) = message :: admitted limit messages :=
  List.filter_cons_of_pos (by simp [h])

theorem admitted_cons_of_some {fault : IngestError} (h : message.fault? limit = some fault) :
    admitted limit (message :: messages) = admitted limit messages :=
  List.filter_cons_of_neg (by simp [h])

theorem faults_cons_of_none (h : message.fault? limit = none) :
    faults limit (message :: messages) = faults limit messages :=
  List.filterMap_cons_none h

theorem faults_cons_of_some {fault : IngestError} (h : message.fault? limit = some fault) :
    faults limit (message :: messages) = fault :: faults limit messages :=
  List.filterMap_cons_some h

end Checks

theorem length_admitted_add_faults (limit : Nat) (messages : List Message) :
    (admitted limit messages).length + (faults limit messages).length = messages.length := by
  induction messages with
  | nil => rfl
  | cons message messages ih =>
      cases h : message.fault? limit with
      | none =>
          rw [admitted_cons_of_none messages h, faults_cons_of_none messages h]
          simp only [List.length_cons]
          omega
      | some fault =>
          rw [admitted_cons_of_some messages h, faults_cons_of_some messages h]
          simp only [List.length_cons]
          omega

end Message

namespace Ring

variable {α : Type}

-- Counting may start anywhere.
theorem foldl_enqueue_eq (count : Nat) (ring : Ring α) (items : List α) :
    items.foldl (fun (count, ring) item =>
        let (evicted, ring) := ring.enqueue item
        (count + if evicted then 1 else 0, ring)) (count, ring) =
      (count + (ring.enqueueAll items).1, (ring.enqueueAll items).2) := by
  unfold enqueueAll
  induction items generalizing count ring with
  | nil => rfl
  | cons item items ih =>
      simp only [List.foldl_cons]
      rw [ih, ih (0 + _), Nat.zero_add, Nat.add_assoc]

theorem enqueueAll_cons (ring : Ring α) (item : α) (items : List α) :
    ring.enqueueAll (item :: items) =
      ((if ring.isFull then 1 else 0) + ((ring.enqueue item).2.enqueueAll items).1,
        ((ring.enqueue item).2.enqueueAll items).2) := by
  rw [enqueueAll, List.foldl_cons]
  simp only [foldl_enqueue_eq, Nat.zero_add]
  rfl

theorem snd_enqueueAll (ring : Ring α) (items : List α) :
    (ring.enqueueAll items).2 = items.foldl (fun ring item => (ring.enqueue item).2) ring := by
  induction items generalizing ring with
  | nil => rfl
  | cons item items ih => rw [enqueueAll_cons, ih, List.foldl_cons]

theorem dropped_enqueueAll (ring : Ring α) (items : List α) :
    (ring.enqueueAll items).2.dropped = ring.dropped + (ring.enqueueAll items).1 := by
  induction items generalizing ring with
  | nil => rfl
  | cons item items ih =>
      have hitem : (ring.enqueue item).2.dropped = ring.dropped + if ring.isFull then 1 else 0 := rfl
      rw [enqueueAll_cons, ih, hitem, Nat.add_assoc]

-- As long as there is room, what comes in lines up.
theorem toList_enqueueAll_of_room {ring : Ring α} {items : List α}
    (h : ring.size + items.length ≤ ring.capacity) :
    (ring.enqueueAll items).2.items.toList = ring.items.toList ++ items := by
  induction items generalizing ring with
  | nil => exact (List.append_nil _).symm
  | cons item items ih =>
      rw [List.length_cons] at h
      have hroom : ring.items.toList.length + 1 ≤ ring.capacity := by
        rw [Fifo.length_toList]
        exact Nat.le_trans (Nat.add_le_add_left (Nat.le_add_left 1 _) _) h
      have hitem : (ring.enqueue item).2.items.toList = ring.items.toList ++ [item] := by
        rw [enqueue, Fifo.toList_keepNewest, Fifo.toList_push, List.length_append,
          List.length_singleton, Nat.sub_eq_zero_of_le hroom, List.drop_zero]
      have hsize : (ring.enqueue item).2.size = ring.size + 1 := by
        rw [size, ← Fifo.length_toList, hitem, List.length_append, Fifo.length_toList]
        rfl
      rw [enqueueAll_cons, ih, hitem, List.append_assoc, List.singleton_append]
      rw [hsize, Nat.add_assoc, Nat.add_comm 1]
      exact h

end Ring

namespace IngestSummary

-- The summary of messages that came in in two parts.
def append (first second : IngestSummary) : IngestSummary where
  accepted := first.accepted + second.accepted
  evicted := first.evicted + second.evicted
  rejected := first.rejected ++ second.rejected

theorem append_assoc (first second third : IngestSummary) :
    (first.append second).append third = first.append (second.append third) := by
  simp only [append, Nat.add_assoc, List.append_assoc]

theorem empty_append (summary : IngestSummary) : append {} summary = summary := by
  simp [append]

theorem append_empty (summary : IngestSummary) : append summary {} = summary := by
  simp [append]

theorem count_eq_append (summary : IngestSummary) (answer : Except IngestError IngestOutcome) :
    summary.count answer = summary.append (count {} answer) := by
  cases answer with
  | error fault => rfl
  | ok outcome => cases outcome <;> simp [count, append]

end IngestSummary

namespace Coordinator

-- The answers to requests that come one after the other, and what they lead to.
def answerEach {α β : Type} (f : Coordinator → α → β × Coordinator) (coordinator : Coordinator) :
    List α → List β × Coordinator
  | [] => ([], coordinator)
  | request :: requests =>
    let (answer, coordinator) := f coordinator request
    let (answers, coordinator) := answerEach f coordinator requests
    (answer :: answers, coordinator)

section Ingest

variable (coordinator : Coordinator)

theorem foldl_ingest_eq (summary : IngestSummary) (messages : List Message) :
    messages.foldl (fun (summary, coordinator) message =>
        let (answer, coordinator) := ingest coordinator message
        (summary.count answer, coordinator)) (summary, coordinator) =
      (summary.append (coordinator.ingestAll messages).1, (coordinator.ingestAll messages).2) := by
  unfold ingestAll
  induction messages generalizing summary coordinator with
  | nil => simp [IngestSummary.append_empty]
  | cons message messages ih =>
      simp only [List.foldl_cons]
      rw [ih, ih _ (IngestSummary.count {} _), IngestSummary.count_eq_append,
        IngestSummary.append_assoc]

theorem ingestAll_cons (message : Message) (messages : List Message) :
    coordinator.ingestAll (message :: messages) =
      let (answer, next) := coordinator.ingest message
      ((IngestSummary.count {} answer).append (next.ingestAll messages).1,
        (next.ingestAll messages).2) := by
  rw [ingestAll, List.foldl_cons]
  exact foldl_ingest_eq _ _ messages

-- It makes no difference where messages are cut to come in in two parts.
theorem ingestAll_append (first second : List Message) :
    coordinator.ingestAll (first ++ second) =
      let (summary, next) := coordinator.ingestAll first
      (summary.append (next.ingestAll second).1, (next.ingestAll second).2) := by
  rw [ingestAll, List.foldl_append]
  exact foldl_ingest_eq _ _ second

theorem foldl_count_answerEach_from (summary : IngestSummary) (messages : List Message) :
    (answerEach ingest coordinator messages).1.foldl IngestSummary.count summary =
      summary.append (coordinator.ingestAll messages).1 := by
  induction messages generalizing summary coordinator with
  | nil => exact summary.append_empty.symm
  | cons message messages ih =>
      simp only [answerEach, List.foldl_cons]
      rw [ih, ingestAll_cons, IngestSummary.count_eq_append, IngestSummary.append_assoc]

-- The summary counts the answers that the messages get one by one.
theorem foldl_count_answerEach (messages : List Message) :
    (answerEach ingest coordinator messages).1.foldl IngestSummary.count {} =
      (coordinator.ingestAll messages).1 := by
  rw [foldl_count_answerEach_from, IngestSummary.empty_append]

theorem answerEach_ingest_snd (messages : List Message) :
    (answerEach ingest coordinator messages).2 = (coordinator.ingestAll messages).2 := by
  induction messages generalizing coordinator with
  | nil => rfl
  | cons message messages ih =>
      rw [ingestAll_cons]
      exact ih _

theorem foldl_append_answerEach_from (summary : IngestSummary) (parts : List (List Message)) :
    (answerEach ingestAll coordinator parts).1.foldl IngestSummary.append summary =
      summary.append (coordinator.ingestAll parts.flatten).1 := by
  induction parts generalizing summary coordinator with
  | nil => exact summary.append_empty.symm
  | cons part parts ih =>
      simp only [answerEach, List.foldl_cons, List.flatten_cons]
      rw [ih, ingestAll_append, IngestSummary.append_assoc]

-- The summaries of the parts add up to that of the whole.
theorem foldl_append_answerEach (parts : List (List Message)) :
    (answerEach ingestAll coordinator parts).1.foldl IngestSummary.append {} =
      (coordinator.ingestAll parts.flatten).1 := by
  rw [foldl_append_answerEach_from, IngestSummary.empty_append]

theorem answerEach_ingestAll_snd (parts : List (List Message)) :
    (answerEach ingestAll coordinator parts).2 = (coordinator.ingestAll parts.flatten).2 := by
  induction parts generalizing coordinator with
  | nil => rfl
  | cons part parts ih =>
      rw [List.flatten_cons, ingestAll_append]
      exact ih _

theorem ingest_of_fault {message : Message} {fault : IngestError}
    (h : message.fault? coordinator.config.maxMessageBytes = some fault) :
    coordinator.ingest message =
      (.error fault, { coordinator with rejected := coordinator.rejected + 1 }) := by
  simp only [ingest, h]

theorem ingest_of_admitted {message : Message}
    (h : message.fault? coordinator.config.maxMessageBytes = none) :
    coordinator.ingest message =
      (.ok (if coordinator.ring.isFull then .acceptedWithEviction else .accepted),
        { coordinator with ring := (coordinator.ring.enqueue message).2 }) := by
  simp only [ingest, h]
  rfl

-- What messages do to a feed is what those among them that pass the checks do to its ring.
theorem ingestAll_eq (messages : List Message) :
    coordinator.ingestAll messages =
      let admitted := Message.admitted coordinator.config.maxMessageBytes messages
      let faults := Message.faults coordinator.config.maxMessageBytes messages
      let (evicted, ring) := coordinator.ring.enqueueAll admitted
      ({ accepted := admitted.length, evicted := evicted, rejected := faults },
       { coordinator with ring := ring, rejected := coordinator.rejected + faults.length }) := by
  induction messages generalizing coordinator with
  | nil => rfl
  | cons message messages ih =>
      rw [ingestAll_cons]
      cases h : message.fault? coordinator.config.maxMessageBytes with
      | none =>
          rw [ingest_of_admitted coordinator h, Message.admitted_cons_of_none messages h,
            Message.faults_cons_of_none messages h]
          by_cases hfull : coordinator.ring.isFull = true
          · simp [ih, Ring.enqueueAll_cons, hfull, IngestSummary.count, IngestSummary.append,
              Nat.add_comm]
          · simp [ih, Ring.enqueueAll_cons, hfull, IngestSummary.count, IngestSummary.append,
              Nat.add_comm]
      | some fault =>
          rw [ingest_of_fault coordinator h, Message.admitted_cons_of_some messages h,
            Message.faults_cons_of_some messages h]
          simp [ih, IngestSummary.count, IngestSummary.append, Nat.add_assoc, Nat.add_comm 1]

-- Messages that are turned away leave no trace but their number, and it makes no difference in
-- how many calls the messages come in.
theorem ingestAll_of_parts (parts : List (List Message)) :
    let limit := coordinator.config.maxMessageBytes
    let messages := parts.flatten
    let admitted := messages.filter fun message => (message.fault? limit).isNone
    let summary := (coordinator.ingestAll messages).1
    let after := (coordinator.ingestAll messages).2
    after = { coordinator with
      ring := admitted.foldl (fun ring message => (ring.enqueue message).2) coordinator.ring
      rejected := coordinator.rejected + summary.rejected.length } ∧
    summary.accepted = admitted.length ∧
    summary.accepted + summary.rejected.length = messages.length ∧
    after.ring.dropped = coordinator.ring.dropped + summary.evicted ∧
    summary.rejected = messages.filterMap (fun message => message.fault? limit) ∧
    (∀ (message : Message) (fault : IngestError), message.fault? limit = some fault ↔
      (fault = .emptyId ∧ ∀ c ∈ message.id.toList, c.toNat ∈ whiteSpace) ∨
      (fault = .contentTooLarge message.id message.content.utf8ByteSize limit ∧
        ¬(∀ c ∈ message.id.toList, c.toNat ∈ whiteSpace) ∧
        limit < message.content.utf8ByteSize)) ∧
    (let (answers, last) := answerEach ingest coordinator messages
     answers.foldl IngestSummary.count {} = summary ∧ last = after) ∧
    (let (summaries, last) := answerEach ingestAll coordinator parts
     summaries.foldl IngestSummary.append {} = summary ∧ last = after) := by
  intro limit messages admitted summary after
  have hsummary : summary =
      { accepted := admitted.length
        evicted := (coordinator.ring.enqueueAll admitted).1
        rejected := Message.faults limit messages } :=
    congrArg Prod.fst (coordinator.ingestAll_eq messages)
  have hafter : after = { coordinator with
      ring := (coordinator.ring.enqueueAll admitted).2
      rejected := coordinator.rejected + (Message.faults limit messages).length } :=
    congrArg Prod.snd (coordinator.ingestAll_eq messages)
  refine ⟨?_, ?_, ?_, ?_, ?_, fun message fault => message.fault?_eq_some_iff limit fault,
    ⟨coordinator.foldl_count_answerEach messages, coordinator.answerEach_ingest_snd messages⟩,
    ⟨coordinator.foldl_append_answerEach parts, coordinator.answerEach_ingestAll_snd parts⟩⟩
  · rw [hafter, hsummary, Ring.snd_enqueueAll]
  · rw [hsummary]
  · rw [hsummary]
    exact Message.length_admitted_add_faults limit messages
  · rw [hafter, hsummary]
    exact coordinator.ring.dropped_enqueueAll admitted
  · rw [hsummary]
    rfl

example :
    let config : PipelineConfig := { ringCapacity := 1, maxMessageBytes := 3 }
    let message (id content : String) : Message := ⟨id, .user, .chunk, content, 0, []⟩
    ((Coordinator.new config 0).ingestAll
        [message "x" "one", message " " "two", message "y" "three", message "z" "six"]).1 =
      { accepted := 2, evicted := 1, rejected := [.emptyId, .contentTooLarge "y" 5 3] } := by
  decide

end Ingest

end Coordinator

end PacedFeed
