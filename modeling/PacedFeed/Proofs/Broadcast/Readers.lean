import Mathlib.Data.List.Basic
import PacedFeed.Broadcast
import PacedFeed.Proofs.Trace

-- What the readers of a stream get to see, however they and the sender take turns.

namespace PacedFeed

-- One who follows a stream: how many values were sent before it came, its place in the stream, and
-- what it was told so far.
structure Audience.Reader (α : Type) where
  joined : Nat
  cursor : Cursor
  seen : List (Reading α)

-- A stream and its readers, in the order in which they came.
structure Audience (α : Type) where
  stream : Broadcast α
  readers : List (Audience.Reader α)

variable {α : Type}

namespace Reading

-- How many values of the stream a reading leaves behind.
def passed : Reading α → Nat
  | .value _ => 1
  | .lagged missed => missed
  | .caughtUp => 0

def value? : Reading α → Option α
  | .value item => some item
  | _ => none

def isLagged : Reading α → Bool
  | .lagged _ => true
  | _ => false

-- What one is told who has not read some values yet.
def next (unread : List α) : Reading α :=
  if Broadcast.depth < unread.length then .lagged (unread.length - Broadcast.depth)
  else
    match unread with
    | [] => .caughtUp
    | item :: _ => .value item

theorem next_of_lagging {unread : List α} (h : Broadcast.depth < unread.length) :
    next unread = .lagged (unread.length - Broadcast.depth) :=
  if_pos h

@[simp] theorem next_nil : next ([] : List α) = .caughtUp := by
  simp [next]

theorem next_cons {item : α} {rest : List α} (h : rest.length < Broadcast.depth) :
    next (item :: rest) = .value item := by
  unfold next
  rw [if_neg (by rw [List.length_cons]; omega)]

-- A marker is given exactly to those who have more to read than is kept.
theorem next_eq_lagged_iff {unread : List α} {missed : Nat} :
    next unread = .lagged missed ↔ 0 < missed ∧ unread.length = missed + Broadcast.depth := by
  unfold next
  split
  · simp only [lagged.injEq]
    omega
  · cases unread with
    | nil => simp [Broadcast.depth]
    | cons item rest =>
        simp only [reduceCtorEq, false_iff]
        omega

theorem next_eq_caughtUp_iff {unread : List α} : next unread = .caughtUp ↔ unread = [] := by
  unfold next
  split
  · simp only [reduceCtorEq, false_iff]
    rintro rfl
    contradiction
  · cases unread <;> simp

theorem passed_next_le (unread : List α) : (next unread).passed ≤ unread.length := by
  unfold next
  split
  · simp only [passed]
    omega
  · cases unread <;> simp [passed]

-- Whoever is told anything has less to read afterwards. One that lags behind goes on with what is
-- kept, which takes it one reading more.
theorem min_passed_next_lt {unread : List α} (h : next unread ≠ .caughtUp) :
    min (unread.length - (next unread).passed) (Broadcast.depth + 1) <
      min unread.length (Broadcast.depth + 1) := by
  by_cases hl : Broadcast.depth < unread.length
  · rw [next_of_lagging hl, passed]
    omega
  · cases unread with
    | nil => exact absurd next_nil h
    | cons item rest =>
        rw [List.length_cons] at hl ⊢
        rw [next_cons (by omega), passed]
        omega

end Reading

-- The values that were received, in order.
def received (readings : List (Reading α)) : List α :=
  readings.filterMap Reading.value?

@[simp] theorem received_concat (readings : List (Reading α)) (reading : Reading α) :
    received (readings ++ [reading]) = received readings ++ reading.value?.toList := by
  rw [received, List.filterMap_append, ← received, List.filterMap_cons, List.filterMap_nil]
  cases reading.value? <;> rfl

-- Some readings account for some values: each value was received, or it is one of those that a
-- marker counts.
inductive Accounts : List (Reading α) → List α → Prop
  | nil : Accounts [] []
  | value {readings : List (Reading α)} {items : List α} (h : Accounts readings items) (item : α) :
      Accounts (readings ++ [.value item]) (items ++ [item])
  | lagged {readings : List (Reading α)} {items : List α} (h : Accounts readings items)
      {missed : List α} (hm : missed ≠ []) :
      Accounts (readings ++ [.lagged missed.length]) (items ++ missed)
  | caughtUp {readings : List (Reading α)} {items : List α} (h : Accounts readings items) :
      Accounts (readings ++ [.caughtUp]) items

section Accounts

variable {readings : List (Reading α)} {items : List α}

theorem Accounts.received_sublist (h : Accounts readings items) :
    (received readings).Sublist items := by
  induction h with
  | nil => exact List.Sublist.refl _
  | value _ item ih => simpa [Reading.value?] using ih.append_right [item]
  | lagged _ _ ih => simpa [Reading.value?] using ih.trans (List.sublist_append_left _ _)
  | caughtUp _ ih => simpa [Reading.value?] using ih

theorem Accounts.received_eq (h : Accounts readings items)
    (hl : ∀ reading ∈ readings, reading.isLagged = false) : received readings = items := by
  induction h with
  | nil => rfl
  | value _ item ih =>
      have hr := ih fun reading hm => hl reading (List.mem_append_left _ hm)
      simp [Reading.value?, hr]
  | @lagged _ _ _ missed _ _ =>
      have hm := hl (.lagged missed.length) (by simp)
      cases hm
  | caughtUp _ ih =>
      have hr := ih fun reading hm => hl reading (List.mem_append_left _ hm)
      simp [Reading.value?, hr]

-- One more reading accounts for the values that it passes.
theorem Accounts.next (h : Accounts readings items) (unread : List α) :
    Accounts (readings ++ [.next unread])
      (items ++ unread.take (Reading.next unread).passed) := by
  unfold Reading.next
  split
  · have hm : unread.take (unread.length - Broadcast.depth) ≠ [] := by
      intro he
      have hlen := congrArg List.length he
      simp only [List.length_take, List.length_nil] at hlen
      omega
    have hlagged := h.lagged hm
    rw [List.length_take, Nat.min_eq_left (Nat.sub_le _ _)] at hlagged
    exact hlagged
  · cases unread with
    | nil => simpa [Reading.passed] using h.caughtUp
    | cons item rest => exact h.value item

end Accounts

namespace Broadcast

-- The stream knows how many values were sent and keeps the newest of them.
structure Carries (stream : Broadcast α) (sent : List α) : Prop where
  count : stream.sent = sent.length
  kept : stream.kept.toList = sent.drop (sent.length - depth)

theorem carries_empty : Carries (empty : Broadcast α) [] where
  count := rfl
  kept := by simp [empty]

section Carries

variable {stream : Broadcast α} {sent : List α}

theorem Carries.send (h : Carries stream sent) (item : α) :
    Carries (stream.send item) (sent ++ [item]) where
  count := by simp [Broadcast.send, h.count]
  kept := by
    have hkept := h.kept
    unfold Broadcast.send
    generalize depth = limit at hkept ⊢
    exact Fifo.toList_keepNewest_push hkept item

theorem Carries.oldest (h : Carries stream sent) : stream.oldest = sent.length - depth := by
  have hsize : stream.kept.size = min sent.length depth := by
    rw [← Fifo.length_toList, h.kept, List.length_drop]
    omega
  rw [Broadcast.oldest, h.count, hsize]
  omega

-- A reader is told what its unread values call for, and goes on behind them.
theorem Carries.read (h : Carries stream sent) {cursor : Cursor}
    (hc : cursor.position ≤ sent.length) :
    stream.read cursor =
      (.next (sent.drop cursor.position),
        ⟨cursor.position + (Reading.next (sent.drop cursor.position)).passed⟩) := by
  have hunread : (sent.drop cursor.position).length = sent.length - cursor.position :=
    List.length_drop
  rw [Broadcast.read, h.oldest, h.kept]
  by_cases hl : depth < (sent.drop cursor.position).length
  · have hp : cursor.position < sent.length - depth := by omega
    rw [if_pos hp, Reading.next_of_lagging hl, hunread]
    simp only [Reading.passed, Prod.mk.injEq, Reading.lagged.injEq, Cursor.mk.injEq]
    omega
  · have hp : ¬cursor.position < sent.length - depth := by omega
    have hplace : sent.length - depth + (cursor.position - (sent.length - depth)) =
        cursor.position := by omega
    rw [if_neg hp, List.getElem?_drop, hplace, ← List.head?_drop]
    cases hrest : sent.drop cursor.position with
    | nil => simp [Reading.passed]
    | cons item rest =>
        rw [hrest, List.length_cons] at hl
        rw [Reading.next_cons (by omega)]
        rfl

theorem drainFrom_succ (stream : Broadcast α) (fuel : Nat) (cursor : Cursor)
    (h : (stream.read cursor).1 ≠ .caughtUp) :
    stream.drainFrom (fuel + 1) cursor =
      ((stream.read cursor).1 :: (stream.drainFrom fuel (stream.read cursor).2).1,
        (stream.drainFrom fuel (stream.read cursor).2).2) := by
  rw [drainFrom]
  split
  · rename_i hread
    exact absurd (congrArg Prod.fst hread) h
  · rename_i hread
    rw [hread]

-- Enough reads in a row leave nothing unread.
theorem Carries.drainFrom (h : Carries stream sent) (fuel : Nat) {cursor : Cursor}
    (hc : cursor.position ≤ sent.length)
    (hf : min (sent.length - cursor.position) (depth + 1) ≤ fuel)
    {readings : List (Reading α)} {items : List α} (ha : Accounts readings items) :
    (stream.drainFrom fuel cursor).2.position = sent.length ∧
      Accounts (readings ++ (stream.drainFrom fuel cursor).1)
        (items ++ sent.drop cursor.position) := by
  induction fuel generalizing cursor readings items with
  | zero =>
      have hp : cursor.position = sent.length := by omega
      simpa [Broadcast.drainFrom, hp] using ha
  | succ fuel ih =>
      have hread := h.read hc
      have hlen : (sent.drop cursor.position).length = sent.length - cursor.position :=
        List.length_drop
      by_cases hnext : Reading.next (sent.drop cursor.position) = .caughtUp
      · have hnil := Reading.next_eq_caughtUp_iff.mp hnext
        have hp : cursor.position = sent.length := by
          rw [hnil, List.length_nil] at hlen
          omega
        rw [Broadcast.drainFrom, hread, hnext]
        simpa [Reading.passed, hnil, hp] using ha
      · have hless := Reading.min_passed_next_lt hnext
        have hle := Reading.passed_next_le (sent.drop cursor.position)
        have haccounts := ha.next (sent.drop cursor.position)
        rw [drainFrom_succ _ _ _ (hread ▸ hnext), hread]
        generalize Reading.next (sent.drop cursor.position) = reading at *
        have hrest := @ih ⟨cursor.position + reading.passed⟩ (by grind) (by grind) _ _ haccounts
        rw [← List.drop_drop, List.append_assoc, List.append_assoc, List.take_append_drop] at hrest
        exact hrest

-- A reader that drains a stream has read all of it.
theorem Carries.drain (h : Carries stream sent) {cursor : Cursor}
    (hc : cursor.position ≤ sent.length)
    {readings : List (Reading α)} {items : List α} (ha : Accounts readings items) :
    (stream.drain cursor).2.position = sent.length ∧
      Accounts (readings ++ (stream.drain cursor).1) (items ++ sent.drop cursor.position) := by
  refine h.drainFrom _ hc ?_ ha
  rw [← Fifo.length_toList, h.kept, List.length_drop]
  omega

end Carries

end Broadcast

namespace Audience

-- Values are sent one by one. Between any two of them readers may come, and each may read on.
inductive Step (α : Type) where
  | send (item : α)
  | subscribe
  | read (reader : Nat)

def Reader.read (stream : Broadcast α) (reader : Reader α) : Reader α :=
  let (reading, cursor) := stream.read reader.cursor
  { reader with cursor := cursor, seen := reader.seen ++ [reading] }

def empty : Audience α :=
  ⟨.empty, []⟩

def step (audience : Audience α) : Step α → Audience α
  | .send item => { audience with stream := audience.stream.send item }
  | .subscribe =>
    { audience with
      readers := audience.readers ++ [⟨audience.stream.sent, audience.stream.subscribe, []⟩] }
  | .read reader =>
    { audience with readers := audience.readers.modify reader (·.read audience.stream) }

def run (audience : Audience α) (schedule : List (Step α)) : Audience α :=
  schedule.foldl step audience

def Step.item? : Step α → Option α
  | .send item => some item
  | _ => none

-- The values that are sent on the way.
def sends (schedule : List (Step α)) : List α :=
  schedule.filterMap Step.item?

-- Whether a step is something other than a reading of someone else.
def Step.concerns (reader : Nat) : Step α → Bool
  | .read other => other = reader
  | _ => true

theorem run_concat (audience : Audience α) (schedule : List (Step α)) (last : Step α) :
    audience.run (schedule ++ [last]) = (audience.run schedule).step last :=
  List.foldl_concat _ _ _ _

theorem sends_cons (first : Step α) (schedule : List (Step α)) :
    sends (first :: schedule) = first.item?.toList ++ sends schedule := by
  rw [sends, List.filterMap_cons]
  cases first.item? <;> rfl

theorem sends_append (first second : List (Step α)) :
    sends (first ++ second) = sends first ++ sends second :=
  List.filterMap_append

theorem sends_concat (schedule : List (Step α)) (last : Step α) :
    sends (schedule ++ [last]) = sends schedule ++ last.item?.toList := by
  rw [sends_append, sends_cons]
  exact congrArg (sends schedule ++ ·) (List.append_nil _)

-- The readings of a reader account for what was sent since it came, up to its place.
structure Follows (sent : List α) (reader : Reader α) : Prop where
  joined_le : reader.joined ≤ reader.cursor.position
  position_le : reader.cursor.position ≤ sent.length
  accounts : Accounts reader.seen ((sent.take reader.cursor.position).drop reader.joined)

section Follows

variable {stream : Broadcast α} {sent : List α} {reader : Reader α}

theorem Follows.send (h : Follows sent reader) (item : α) : Follows (sent ++ [item]) reader where
  joined_le := h.joined_le
  position_le := by
    have hle := h.position_le
    simp only [List.length_append]
    omega
  accounts := by
    rw [List.take_append_of_le_length h.position_le]
    exact h.accounts

theorem Follows.read (h : Follows sent reader) (hs : stream.Carries sent) :
    Follows sent (reader.read stream) := by
  have hjoined := h.joined_le
  have hle := Reading.passed_next_le (sent.drop reader.cursor.position)
  rw [List.length_drop] at hle
  have hposition := h.position_le
  rw [Reader.read, hs.read h.position_le]
  refine ⟨by simp only; omega, by simp only; omega, ?_⟩
  have hnext := h.accounts.next (sent.drop reader.cursor.position)
  rw [← List.drop_append_of_le_length (by simp; omega)] at hnext
  rwa [List.take_add]

-- What a reader has not read yet is behind what its readings account for.
theorem Follows.split (h : Follows sent reader) :
    sent.drop reader.joined =
      (sent.take reader.cursor.position).drop reader.joined ++
        sent.drop reader.cursor.position := by
  have hjoined := h.joined_le
  have hposition := h.position_le
  rw [← List.drop_append_of_le_length (by simp; omega), List.take_append_drop]

end Follows

-- The stream carries what was sent, and every reader follows it.
theorem follows_run (schedule : List (Step α)) :
    (run .empty schedule).stream.Carries (sends schedule) ∧
      ∀ reader ∈ (run .empty schedule).readers, Follows (sends schedule) reader := by
  induction schedule using List.reverseRecOn with
  | nil => exact ⟨Broadcast.carries_empty, by simp [run, empty]⟩
  | append_singleton schedule last ih =>
      obtain ⟨hcarries, hfollows⟩ := ih
      rw [run_concat, sends_concat]
      cases last with
      | send item => exact ⟨hcarries.send item, fun reader hm => (hfollows reader hm).send item⟩
      | subscribe =>
          simp only [Step.item?, Option.toList_none, List.append_nil, step]
          refine ⟨hcarries, fun reader hm => ?_⟩
          rcases List.mem_append.mp hm with hm | hm
          · exact hfollows reader hm
          · rw [List.mem_singleton.mp hm]
            refine ⟨Nat.le_refl _, Nat.le_of_eq hcarries.count, ?_⟩
            simpa [Broadcast.subscribe, hcarries.count] using Accounts.nil
      | read index =>
          simp only [Step.item?, Option.toList_none, List.append_nil, step]
          refine ⟨hcarries, fun reader hm => ?_⟩
          obtain ⟨place, hplace⟩ := List.getElem?_of_mem hm
          rw [List.getElem?_modify] at hplace
          obtain ⟨before, hbefore, rfl⟩ := Option.map_eq_some_iff.mp hplace
          have hreader := hfollows before (List.mem_of_getElem? hbefore)
          split
          · exact hreader.read hcarries
          · exact hreader

-- One reading tells a reader what its unread values call for.
theorem readers_run_read (schedule : List (Step α)) (index : Nat) {reader : Reader α}
    (h : (run .empty schedule).readers[index]? = some reader) :
    let reading := Reading.next ((sends schedule).drop reader.cursor.position)
    (run .empty (schedule ++ [.read index])).readers[index]? =
      some ⟨reader.joined, ⟨reader.cursor.position + reading.passed⟩,
        reader.seen ++ [reading]⟩ := by
  obtain ⟨hcarries, hfollows⟩ := follows_run schedule
  have hposition := (hfollows reader (List.mem_of_getElem? h)).position_le
  have hread := hcarries.read hposition
  simp only [run_concat, step, List.getElem?_modify_eq, h, Option.map_eq_map, Option.map_some,
    Reader.read, hread]

-- Readers keep their places, and the number of values that were sent before they came.
theorem joined_run (before after : List (Step α)) :
    ∃ reader, (run .empty (before ++ .subscribe :: after)).readers[
        (run .empty before).readers.length]? = some reader ∧
      reader.joined = (sends before).length := by
  induction after using List.reverseRecOn with
  | nil =>
      rw [run_concat]
      exact ⟨_, List.getElem?_concat_length, (follows_run before).1.count⟩
  | append_singleton after last ih =>
      obtain ⟨reader, hreader, hjoined⟩ := ih
      rw [← List.cons_append, ← List.append_assoc, run_concat]
      cases last with
      | send => exact ⟨reader, hreader, hjoined⟩
      | subscribe =>
          refine ⟨reader, ?_, hjoined⟩
          rw [← hreader]
          exact List.getElem?_append_left (List.getElem?_eq_some_iff.mp hreader).1
      | read index =>
          simp only [step, List.getElem?_modify, hreader, Option.map_eq_map, Option.map_some]
          split
          · exact ⟨_, rfl, hjoined⟩
          · exact ⟨_, rfl, hjoined⟩

-- The stream does not depend on who reads it.
theorem stream_run (schedule : List (Step α)) :
    (run .empty schedule).stream = (sends schedule).foldl Broadcast.send .empty := by
  induction schedule using List.reverseRecOn with
  | nil => rfl
  | append_singleton schedule last ih =>
      rw [run_concat, sends_concat, List.foldl_append, ← ih]
      cases last <;> rfl

-- Leaving the readings of others out changes neither the stream nor what one reader sees.
theorem run_filter_concerns (reader : Nat) (schedule : List (Step α)) :
    let alone := run .empty (schedule.filter (Step.concerns reader))
    alone.stream = (run .empty schedule).stream ∧
      alone.readers.length = (run .empty schedule).readers.length ∧
      alone.readers[reader]? = (run .empty schedule).readers[reader]? := by
  induction schedule using List.reverseRecOn with
  | nil => exact ⟨rfl, rfl, rfl⟩
  | append_singleton schedule last ih =>
      obtain ⟨hstream, hlength, hreader⟩ := ih
      by_cases hc : last.concerns reader = true
      · rw [List.filter_append, List.filter_cons_of_pos hc, List.filter_nil, run_concat, run_concat]
        cases last with
        | send item => exact ⟨congrArg (·.send item) hstream, hlength, hreader⟩
        | subscribe =>
            simp only [step, hstream, List.length_append, hlength, List.getElem?_append, hreader,
              true_and]
        | read index =>
            have hsame : index = reader := of_decide_eq_true hc
            subst hsame
            simp only [step, hstream, List.length_modify, hlength, List.getElem?_modify_eq, hreader,
              true_and]
      · rw [List.filter_append, List.filter_cons_of_neg hc, List.filter_nil, List.append_nil,
          run_concat]
        cases last with
        | send | subscribe => exact absurd rfl hc
        | read index =>
            have hother : index ≠ reader := fun h => hc (decide_eq_true h)
            refine ⟨hstream, ?_, ?_⟩
            · rw [hlength]
              exact (List.length_modify _ _ _).symm
            · rw [hreader]
              exact (List.getElem?_modify_ne _ _ hother).symm

end Audience

end PacedFeed
