import PacedFeed.Coordinator.Frame
import PacedFeed.Proofs.Ring.Ledger
import PacedFeed.Proofs.Trace

-- Everything that can be done with a coordinator, and what happens to messages on the way.

namespace PacedFeed

-- A coordinator with the time on its clock.
structure Pipeline where
  coordinator : Coordinator
  now : Instant

-- One message at the entrance. An accepted one may have cost the ring its oldest.
structure Submission where
  producer : Nat
  message : Message
  answer : Except IngestError IngestOutcome
  overwritten : Option (Nat × Message)

-- Whether an accepted message cost the ring another one.
def Submission.evicts (submission : Submission) : Bool :=
  match submission.answer with
  | .ok .acceptedWithEviction => true
  | _ => false

namespace Pipeline

-- Producers share the way in. The rest is done in one place, and the window may be looked at.
inductive Step where
  | ingest (producer : Nat) (message : Message)
  | ingestAll (producer : Nat) (messages : List Message)
  | start
  | stop
  | tick
  | flush
  | advance (span : Duration)
  | scrollTo (offset : Int)
  | scrollToBottom
  | setFollowTail (follow : Bool)

-- A message comes to the entrance, messages go from the ring to the batcher, or a batch is appended
-- to the window.
inductive Event where
  | submission (submission : Submission)
  | draining (messages : List Message)
  | delivery (batch : Batch)

def view (state : Pipeline) (window : Window) : Pipeline :=
  { state with coordinator := { state.coordinator with window := window } }

def step (state : Pipeline) : Step → Pipeline
  | .ingest _ message => { state with coordinator := (state.coordinator.ingest message).2 }
  | .ingestAll _ messages => { state with coordinator := (state.coordinator.ingestAll messages).2 }
  | .start => { state with coordinator := state.coordinator.start.2 }
  | .stop => { state with coordinator := (state.coordinator.stop state.now).2 }
  | .tick => { state with coordinator := (state.coordinator.runFrame state.now).2 }
  | .flush => { state with coordinator := (state.coordinator.flush state.now).2 }
  | .advance span => { state with now := state.now + span }
  | .scrollTo offset => state.view (state.coordinator.window.scrollTo offset).2
  | .scrollToBottom => state.view state.coordinator.window.scrollToBottom.2
  | .setFollowTail follow => state.view (state.coordinator.window.setFollowTail follow)

-- The messages that a step hands in, each with its producer.
def Step.offers : Step → List (Nat × Message)
  | .ingest producer message => [(producer, message)]
  | .ingestAll producer messages => messages.map (producer, ·)
  | _ => []

def submit (coordinator : Coordinator) (producer : Nat) (message : Message) : Submission where
  producer := producer
  message := message
  answer := (coordinator.ingest message).1
  overwritten :=
    match (coordinator.ingest message).1 with
    | .ok _ => coordinator.ring.overwritten
    | .error _ => none

def submitAll (coordinator : Coordinator) (producer : Nat) : List Message → List Event
  | [] => []
  | message :: messages =>
    .submission (submit coordinator producer message) ::
      submitAll (coordinator.ingest message).2 producer messages

def collecting (messages : List Message) (batches : List Batch) : List Event :=
  .draining messages :: batches.map .delivery

-- The messages that a frame takes from the ring.
def due (state : Pipeline) : List Message :=
  (state.coordinator.ring.dequeueMany (state.coordinator.beginFrame state.now).budget).1

def frame (state : Pipeline) : List Event :=
  collecting state.due ((state.coordinator.beginFrame state.now).collectDue state.now).1.2

def outpour (state : Pipeline) : List Event :=
  let coordinator := state.coordinator
  collecting (coordinator.ring.dequeueMany coordinator.ring.capacity).1
    (coordinator.collectAll state.now).1.toList

def isRunning (state : Pipeline) : Bool :=
  state.coordinator.lifecycle = .running

def happen (state : Pipeline) : Step → List Event
  | .ingest producer message => submitAll state.coordinator producer [message]
  | .ingestAll producer messages => submitAll state.coordinator producer messages
  | .tick => if state.isRunning then state.frame else []
  | .flush => state.outpour
  | .stop =>
    if state.isRunning && state.coordinator.config.flushOnStop then state.outpour else []
  | _ => []

def run (state : Pipeline) (steps : List Step) : Pipeline :=
  steps.foldl step state

def history (state : Pipeline) (steps : List Step) : List Event :=
  trace step happen state steps

theorem run_append (state : Pipeline) (first second : List Step) :
    state.run (first ++ second) = (state.run first).run second :=
  List.foldl_append

theorem run_concat (state : Pipeline) (steps : List Step) (last : Step) :
    state.run (steps ++ [last]) = (state.run steps).step last :=
  List.foldl_concat _ _ _ _

namespace Event

def submission? : Event → Option Submission
  | .submission entry => some entry
  | _ => none

def drained : Event → List Message
  | .draining messages => messages
  | _ => []

def batch? : Event → Option Batch
  | .delivery batch => some batch
  | _ => none

end Event

def submissions (events : List Event) : List Submission :=
  events.filterMap Event.submission?

-- The submissions that were let in, in the order in which the ring took them.
def accepted (events : List Event) : List Submission :=
  (submissions events).filter fun submission => submission.answer.isOk

def rejected (events : List Event) : List Submission :=
  (submissions events).filter fun submission => !submission.answer.isOk

def evictions (events : List Event) : List Submission :=
  (submissions events).filter Submission.evicts

-- The messages that the ring gave up, with their places among the accepted ones.
def lost (events : List Event) : List (Nat × Message) :=
  (submissions events).filterMap Submission.overwritten

def drained (events : List Event) : List Message :=
  events.flatMap Event.drained

def deliveries (events : List Event) : List Batch :=
  events.filterMap Event.batch?

-- The messages that were ever appended to the window.
def delivered (events : List Event) : List Message :=
  (deliveries events).flatMap Batch.messages

section Lists

variable (first second : List Event)

@[simp] theorem submissions_append :
    submissions (first ++ second) = submissions first ++ submissions second :=
  List.filterMap_append

@[simp] theorem accepted_append :
    accepted (first ++ second) = accepted first ++ accepted second := by
  simp [accepted]

@[simp] theorem rejected_append :
    rejected (first ++ second) = rejected first ++ rejected second := by
  simp [rejected]

@[simp] theorem evictions_append :
    evictions (first ++ second) = evictions first ++ evictions second := by
  simp [evictions]

@[simp] theorem lost_append : lost (first ++ second) = lost first ++ lost second := by
  simp [lost]

@[simp] theorem drained_append :
    drained (first ++ second) = drained first ++ drained second :=
  List.flatMap_append

@[simp] theorem deliveries_append :
    deliveries (first ++ second) = deliveries first ++ deliveries second :=
  List.filterMap_append

@[simp] theorem delivered_append :
    delivered (first ++ second) = delivered first ++ delivered second := by
  simp [delivered]

end Lists

section Collecting

variable (messages : List Message) (batches : List Batch)

@[simp] theorem deliveries_collecting : deliveries (collecting messages batches) = batches := by
  induction batches with
  | nil => rfl
  | cons batch batches ih => exact congrArg (batch :: ·) ih

@[simp] theorem drained_collecting : drained (collecting messages batches) = messages := by
  induction batches with
  | nil => exact List.append_nil messages
  | cons batch batches ih => exact ih

@[simp] theorem submissions_collecting : submissions (collecting messages batches) = [] := by
  induction batches with
  | nil => rfl
  | cons batch batches ih => exact ih

@[simp] theorem accepted_collecting : accepted (collecting messages batches) = [] := by
  rw [accepted, submissions_collecting, List.filter_nil]

@[simp] theorem rejected_collecting : rejected (collecting messages batches) = [] := by
  rw [rejected, submissions_collecting, List.filter_nil]

@[simp] theorem evictions_collecting : evictions (collecting messages batches) = [] := by
  rw [evictions, submissions_collecting, List.filter_nil]

@[simp] theorem lost_collecting : lost (collecting messages batches) = [] := by
  rw [lost, submissions_collecting, List.filterMap_nil]

@[simp] theorem delivered_collecting :
    delivered (collecting messages batches) = batches.flatMap Batch.messages := by
  rw [delivered, deliveries_collecting]

end Collecting

@[simp] theorem deliveries_submitAll (coordinator : Coordinator) (producer : Nat)
    (messages : List Message) : deliveries (submitAll coordinator producer messages) = [] := by
  induction messages generalizing coordinator with
  | nil => rfl
  | cons message messages ih => exact ih _

@[simp] theorem drained_submitAll (coordinator : Coordinator) (producer : Nat)
    (messages : List Message) : drained (submitAll coordinator producer messages) = [] := by
  induction messages generalizing coordinator with
  | nil => rfl
  | cons message messages ih => exact ih _

theorem ingestAll_snd (coordinator : Coordinator) (messages : List Message) :
    (coordinator.ingestAll messages).2 =
      messages.foldl (fun coordinator message => (coordinator.ingest message).2) coordinator := by
  unfold Coordinator.ingestAll
  generalize ({} : IngestSummary) = summary
  induction messages generalizing coordinator summary with
  | nil => rfl
  | cons message messages ih => exact ih _ _

-- What no message changes, no number of them changes.
theorem ingestAll_keeps {α : Type} (f : Coordinator → α)
    (h : ∀ (coordinator : Coordinator) (message : Message),
      f (coordinator.ingest message).2 = f coordinator)
    (coordinator : Coordinator) (messages : List Message) :
    f (coordinator.ingestAll messages).2 = f coordinator := by
  rw [ingestAll_snd]
  induction messages generalizing coordinator with
  | nil => rfl
  | cons message messages ih => rw [List.foldl_cons, ih, h]

-- The answers add up to the summary.
theorem ingestAll_fst (coordinator : Coordinator) (producer : Nat) (messages : List Message) :
    (coordinator.ingestAll messages).1 =
      ((submissions (submitAll coordinator producer messages)).map Submission.answer).foldl
        IngestSummary.count {} := by
  unfold Coordinator.ingestAll
  generalize ({} : IngestSummary) = summary
  induction messages generalizing coordinator summary with
  | nil => rfl
  | cons message messages ih => exact ih _ _

end Pipeline

end PacedFeed
