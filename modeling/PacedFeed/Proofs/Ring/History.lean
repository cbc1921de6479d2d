import PacedFeed.Proofs.Ring.Ledger
import PacedFeed.Proofs.Trace

-- A ring holds the newest of the items that entered it, whatever is done with it.

namespace PacedFeed.Ring

variable {α : Type}

section Dequeue

variable (ring : Ring α)

theorem dequeue_cases :
    (ring.dequeue = (none, ring) ∧ ring.items.toList = []) ∨
    (∃ item rest, ring.items.toList = item :: rest.toList ∧
      ring.dequeue = (some item, { ring with items := rest, dequeued := ring.dequeued + 1 })) := by
  unfold dequeue
  cases h : ring.items.pop? with
  | none => exact .inl ⟨rfl, Fifo.pop?_eq_none h⟩
  | some popped =>
      obtain ⟨item, rest⟩ := popped
      exact .inr ⟨item, rest, Fifo.toList_of_pop? h, rfl⟩

theorem dequeueMany_succ (count : Nat) :
    ring.dequeueMany (count + 1) =
      match ring.dequeue with
      | (none, next) => ([], next)
      | (some item, next) =>
        (item :: (next.dequeueMany count).1, (next.dequeueMany count).2) := by
  simp only [dequeueMany, dequeue, Fifo.popMany_succ]
  cases ring.items.pop? with
  | none => rfl
  | some popped =>
      simp only [List.length_cons]
      rw [Nat.add_assoc, Nat.add_comm 1]

-- The answers to a number of single removals, one after the other.
def dequeueEach (ring : Ring α) : Nat → List (Option α) × Ring α
  | 0 => ([], ring)
  | count + 1 =>
    let (item, ring) := ring.dequeue
    let (items, ring) := ring.dequeueEach count
    (item :: items, ring)

-- Removing many at once is removing one after the other, as long as there are any.
theorem dequeueEach_eq_dequeueMany (count : Nat) :
    ring.dequeueEach (min count ring.size) =
      ((ring.dequeueMany count).1.map some, (ring.dequeueMany count).2) := by
  induction count generalizing ring with
  | zero =>
      rw [Nat.zero_min]
      rfl
  | succ count ih =>
      rw [dequeueMany_succ]
      have hlen : ring.items.toList.length = ring.size := Fifo.length_toList _
      obtain ⟨hd, hnil⟩ | ⟨item, rest, hcons, hd⟩ := ring.dequeue_cases
      · rw [hnil, List.length_nil] at hlen
        rw [hd, ← hlen, Nat.min_zero]
        rfl
      · rw [hcons, List.length_cons, Fifo.length_toList] at hlen
        rw [← hlen, Nat.add_min_add_right, dequeueEach, hd]
        have hrest := ih { ring with items := rest, dequeued := ring.dequeued + 1 }
        simp only [size] at hrest
        simp only [hrest, List.map_cons]

end Dequeue

inductive Step (α : Type) where
  | enqueue (item : α)
  | dequeue
  | dequeueMany (count : Nat)
  | clear

def step (ring : Ring α) : Step α → Ring α
  | .enqueue item => (ring.enqueue item).2
  | .dequeue => ring.dequeue.2
  | .dequeueMany count => (ring.dequeueMany count).2
  | .clear => ring.clear

-- The items that a step puts in.
def Step.entering : Step α → List α
  | .enqueue item => [item]
  | _ => []

-- The items that a step takes out without handing them to anyone.
def discarded (ring : Ring α) : Step α → List α
  | .clear => ring.items.toList
  | _ => []

def run (ring : Ring α) (steps : List (Step α)) : Ring α :=
  steps.foldl step ring

-- The ring holds the last of the items that entered it and accounts for all of them.
structure Follows (capacity : Nat) (ring : Ring α) (entered cleared : List α) : Prop where
  capacity_eq : ring.capacity = capacity
  capacity_pos : 0 < capacity
  size_le : ring.size ≤ capacity
  suffix : ring.items.toList <:+ entered
  enqueued : ring.enqueued = entered.length
  balance : ring.enqueued = ring.dequeued + ring.dropped + ring.size + cleared.length

theorem follows_new {capacity : Nat} (hc : 0 < capacity) (origin : Instant) :
    Follows capacity (.new capacity origin : Ring α) [] [] where
  capacity_eq := rfl
  capacity_pos := hc
  size_le := Nat.zero_le _
  suffix := List.suffix_refl _
  enqueued := rfl
  balance := rfl

theorem size_enqueue (ring : Ring α) (item : α) :
    (ring.enqueue item).2.size = min (ring.size + 1) ring.capacity :=
  Fifo.size_keepNewest _ _

section Follows

variable {capacity : Nat} {ring : Ring α} {entered cleared : List α}

theorem Follows.isFull_iff (h : Follows capacity ring entered cleared) :
    ring.isFull = true ↔ ring.size = capacity := by
  have hle := h.size_le
  simp only [isFull, h.capacity_eq, decide_eq_true_eq]
  omega

theorem Follows.toList_enqueue (h : Follows capacity ring entered cleared) (item : α) :
    (ring.enqueue item).2.items.toList =
      (if ring.size = capacity then ring.items.toList.tail else ring.items.toList) ++ [item] := by
  have hpos : 0 < ring.capacity := h.capacity_eq ▸ h.capacity_pos
  have hle : ring.size ≤ ring.capacity := h.capacity_eq ▸ h.size_le
  obtain ⟨hf, -, hi⟩ | ⟨oldest, rest, hf, hl, -, hi⟩ := ring.enqueue_cases item hpos hle
  · rw [hi, if_neg fun hs => Bool.false_ne_true (hf.symm.trans (h.isFull_iff.mpr hs))]
  · rw [hi, if_pos (h.isFull_iff.mp hf), hl, List.tail_cons]

theorem Follows.enqueue (h : Follows capacity ring entered cleared) (item : α) :
    Follows capacity (ring.enqueue item).2 (entered ++ [item]) cleared := by
  have hsize := ring.size_enqueue item
  have hle := h.size_le
  have hbalance := h.balance
  rw [h.capacity_eq] at hsize
  have henqueued : (ring.enqueue item).2.enqueued = ring.enqueued + 1 := rfl
  have hdequeued : (ring.enqueue item).2.dequeued = ring.dequeued := rfl
  have hdropped : (ring.enqueue item).2.dropped = ring.dropped + if ring.isFull then 1 else 0 := rfl
  simp only [h.isFull_iff] at hdropped
  constructor
  · exact h.capacity_eq
  · exact h.capacity_pos
  · omega
  · rw [h.toList_enqueue, List.suffix_append_self_iff]
    split
    · exact (List.tail_suffix _).trans h.suffix
    · exact h.suffix
  · rw [henqueued, h.enqueued, List.length_append, List.length_singleton]
  · rw [henqueued, hdequeued, hdropped, hsize]
    by_cases hfull : ring.size = capacity
    · rw [if_pos hfull]
      omega
    · rw [if_neg hfull]
      omega

theorem Follows.dequeueMany (h : Follows capacity ring entered cleared) (count : Nat) :
    Follows capacity (ring.dequeueMany count).2 entered cleared := by
  have hitems : (ring.dequeueMany count).2.items.toList = ring.items.toList.drop count := by
    simp [Ring.dequeueMany]
  have hdequeued : (ring.dequeueMany count).2.dequeued =
      ring.dequeued + (ring.items.toList.take count).length := by
    simp [Ring.dequeueMany]
  have hlen : ring.items.toList.length = ring.size := Fifo.length_toList _
  have hsize : (ring.dequeueMany count).2.items.toList.length = (ring.dequeueMany count).2.size :=
    Fifo.length_toList _
  have hsplit := congrArg List.length (List.take_append_drop count ring.items.toList)
  rw [List.length_append, ← hitems, hsize, hlen] at hsplit
  have hle := h.size_le
  have hbalance := h.balance
  constructor
  · exact h.capacity_eq
  · exact h.capacity_pos
  · omega
  · rw [hitems]
    exact (List.drop_suffix _ _).trans h.suffix
  · exact h.enqueued
  · have henqueued : (ring.dequeueMany count).2.enqueued = ring.enqueued := rfl
    have hdropped : (ring.dequeueMany count).2.dropped = ring.dropped := rfl
    omega

theorem Follows.dequeue (h : Follows capacity ring entered cleared) :
    Follows capacity ring.dequeue.2 entered cleared := by
  have hone : (ring.dequeueMany 1).2 = ring.dequeue.2 := by
    rw [dequeueMany_succ]
    obtain ⟨hd, -⟩ | ⟨item, rest, -, hd⟩ := ring.dequeue_cases
    · rw [hd]
    · rw [hd]
      rfl
  rw [← hone]
  exact h.dequeueMany 1

theorem Follows.clear (h : Follows capacity ring entered cleared) :
    Follows capacity ring.clear entered (cleared ++ ring.items.toList) := by
  constructor
  · exact h.capacity_eq
  · exact h.capacity_pos
  · exact Nat.zero_le _
  · exact List.nil_suffix
  · exact h.enqueued
  · have hbalance := h.balance
    rw [List.length_append, Fifo.length_toList]
    change ring.enqueued = ring.dequeued + ring.dropped + 0 + (cleared.length + ring.size)
    omega

theorem Follows.step (h : Follows capacity ring entered cleared) (step : Step α) :
    Follows capacity (ring.step step) (entered ++ step.entering)
      (cleared ++ ring.discarded step) := by
  cases step <;> simp only [Ring.step, Step.entering, discarded, List.append_nil]
  case enqueue item => exact h.enqueue item
  case dequeue => exact h.dequeue
  case dequeueMany count => exact h.dequeueMany count
  case clear => exact h.clear

theorem follows_run (h : Follows capacity ring [] []) (steps : List (Step α)) :
    Follows capacity (ring.run steps) (steps.flatMap Step.entering)
      (trace Ring.step discarded ring steps) := by
  induction steps using List.reverseRecOn with
  | nil => exact h
  | append_singleton steps step ih =>
      rw [run, trace_concat, List.foldl_append, List.foldl_cons, List.foldl_nil,
        List.flatMap_append, List.flatMap_singleton]
      exact ih.step step

end Follows

theorem create_eq_ok_iff {capacity : Nat} {origin : Instant} {ring : Ring α} :
    create capacity origin = .ok ring ↔ 0 < capacity ∧ ring = new capacity origin := by
  unfold create
  by_cases hc : capacity = 0
  · simp [hc]
  · simp [hc, Nat.pos_of_ne_zero hc, eq_comm]

section Enqueue

variable (ring : Ring α) (items : List α)

theorem size_run_enqueue (h : ring.size ≤ ring.capacity) :
    (ring.run (items.map .enqueue)).size = min (ring.size + items.length) ring.capacity := by
  induction items generalizing ring with
  | nil => exact (Nat.min_eq_left h).symm
  | cons item items ih =>
      have hsize := ring.size_enqueue item
      have hcapacity : (ring.enqueue item).2.capacity = ring.capacity := rfl
      have hrest := ih (ring.enqueue item).2 (by omega)
      rw [hcapacity] at hrest
      simp only [List.map_cons, List.length_cons]
      change ((ring.enqueue item).2.run (items.map .enqueue)).size = _
      omega

theorem dequeued_run_enqueue : (ring.run (items.map .enqueue)).dequeued = ring.dequeued := by
  induction items generalizing ring with
  | nil => rfl
  | cons item items ih => exact ih (ring.enqueue item).2

theorem discarded_run_enqueue : trace step discarded ring (items.map .enqueue) = [] := by
  induction items generalizing ring with
  | nil => rfl
  | cons item items ih => exact ih (ring.enqueue item).2

theorem entering_map_enqueue : (items.map Step.enqueue).flatMap Step.entering = items := by
  rw [List.flatMap_map]
  exact List.flatMap_singleton' items

end Enqueue

-- Whatever is done with a ring, it holds the newest of the items that entered it. A full one gives
-- up its oldest item for a new one, removing many at once is removing one by one, and the counters
-- account for every item.
theorem holds_newest {capacity : Nat} {origin : Instant} {ring : Ring α}
    (hr : create capacity origin = .ok ring) (steps : List (Step α)) :
    let state := ring.run steps
    let held := state.items.toList
    let entered := steps.flatMap Step.entering
    let cleared := trace step discarded ring steps
    held = entered.drop (entered.length - state.size) ∧ held.length = state.size ∧
    state.size ≤ capacity ∧
    (∀ item, ((state.enqueue item).1 = true ↔ state.size = capacity) ∧
      (state.enqueue item).2.items.toList =
        (if state.size = capacity then held.tail else held) ++ [item]) ∧
    (∀ count, (state.dequeueMany count).1 = held.take count ∧
      state.dequeueEach (min count state.size) =
        ((state.dequeueMany count).1.map some, (state.dequeueMany count).2)) ∧
    (∀ now,
      let counts := state.metrics now
      let after := state.clear.metrics now
      counts.enqueued = entered.length ∧
      counts.enqueued =
        counts.dequeued + counts.dropped + counts.buffered + cleared.length ∧
      after.buffered = 0 ∧ after.enqueued = counts.enqueued ∧
      after.dequeued = counts.dequeued ∧ after.dropped = counts.dropped) ∧
    ∀ items : List α,
      let filled := ring.run (items.map .enqueue)
      filled.items.toList = items.drop (items.length - capacity) ∧
      filled.dropped = items.length - capacity := by
  intro state held entered cleared
  obtain ⟨hc, rfl⟩ := create_eq_ok_iff.mp hr
  have h : Follows capacity state entered cleared := follows_run (follows_new hc origin) steps
  have hlen : held.length = state.size := Fifo.length_toList _
  refine ⟨?_, hlen, h.size_le, fun item => ⟨h.isFull_iff, h.toList_enqueue item⟩, fun count => ?_,
    fun now => ?_, fun items => ?_⟩
  · rw [← hlen]
    exact List.suffix_iff_eq_drop.mp h.suffix
  · exact ⟨Fifo.popMany_fst _ _, state.dequeueEach_eq_dequeueMany count⟩
  · exact ⟨h.enqueued, h.balance, rfl, rfl, rfl, rfl⟩
  · intro filled
    have hf := follows_run (follows_new hc origin) (items.map Step.enqueue)
    rw [entering_map_enqueue, discarded_run_enqueue] at hf
    have hsize : filled.size = min (0 + items.length) capacity :=
      size_run_enqueue _ items (Nat.zero_le _)
    have hdequeued : filled.dequeued = 0 := dequeued_run_enqueue _ items
    have hitems : filled.items.toList.length = filled.size := Fifo.length_toList _
    have henqueued : filled.enqueued = items.length := hf.enqueued
    have hbalance : filled.enqueued = filled.dequeued + filled.dropped + filled.size + 0 :=
      hf.balance
    have hheld := List.suffix_iff_eq_drop.mp hf.suffix
    constructor
    · have hplace : items.length - filled.items.toList.length = items.length - capacity := by omega
      rw [← hplace]
      exact hheld
    · omega

theorem holds_newest_cleared :
    let ring : Ring Nat := .new 2 0
    let steps : List (Step Nat) :=
      [.enqueue 1, .enqueue 2, .enqueue 3, .dequeue, .enqueue 4, .clear, .enqueue 5,
        .dequeueMany 9, .dequeue, .enqueue 6]
    let state := ring.run steps
    create 2 0 = .ok ring ∧ state.items.toList = [1, 2, 3, 4, 5, 6].drop (6 - state.size) ∧
      state.enqueued =
        state.dequeued + state.dropped + state.size +
          (trace step discarded ring steps).length := by
  intro ring steps state
  have hr : create 2 0 = .ok ring := create_eq_ok_iff.mpr ⟨by decide, rfl⟩
  obtain ⟨hheld, -, -, -, -, hcounts, -⟩ := holds_newest hr steps
  exact ⟨hr, hheld, (hcounts 0).2.1⟩

end PacedFeed.Ring
