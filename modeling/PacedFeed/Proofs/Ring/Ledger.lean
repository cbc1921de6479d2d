import Mathlib.Data.List.Basic
import PacedFeed.Ring

-- The items that a ring took in, and what became of each of them.

namespace PacedFeed

section Survivors

variable {α β : Type}

-- The items whose places are not lost, in order.
def survivors (lost : List Nat) (items : List α) : List α :=
  (items.zipIdx.filter (·.2 ∉ lost)).map Prod.fst

theorem survivors_sublist (lost : List Nat) (items : List α) :
    (survivors lost items).Sublist items := by
  have h : (survivors lost items).Sublist (items.zipIdx.map Prod.fst) :=
    List.filter_sublist.map Prod.fst
  rwa [List.zipIdx_map_fst] at h

theorem survivors_map (lost : List Nat) (f : α → β) (items : List α) :
    survivors lost (items.map f) = (survivors lost items).map f := by
  simp [survivors, List.zipIdx_map, List.filter_map, Function.comp_def]

-- What comes after all lost places survives.
theorem survivors_append {lost : List Nat} {first : List α} (second : List α)
    (h : ∀ place ∈ lost, place < first.length) :
    survivors lost (first ++ second) = survivors lost first ++ second := by
  have hsecond : (second.zipIdx first.length).filter (·.2 ∉ lost) = second.zipIdx first.length := by
    rw [List.filter_eq_self]
    intro entry hm
    have hle := (List.mem_zipIdx hm).1
    exact decide_eq_true fun hl => absurd (h _ hl) (Nat.not_lt.mpr hle)
  rw [survivors, List.zipIdx_append, List.filter_append, List.map_append, Nat.zero_add, hsecond,
    List.zipIdx_map_fst]
  rfl

-- The place right behind the items can be lost before it is filled.
theorem survivors_concat (lost : List Nat) (items : List α) (item : α) :
    survivors (lost ++ [items.length]) (items ++ [item]) = survivors lost items := by
  have hsame : items.zipIdx.filter (·.2 ∉ lost ++ [items.length]) =
      items.zipIdx.filter (·.2 ∉ lost) := by
    refine List.filter_congr fun entry hm => ?_
    have hlt : entry.2 < items.length := by
      have := List.mem_zipIdx hm
      omega
    simp [Nat.ne_of_lt hlt]
  rw [survivors, List.zipIdx_append, List.filter_append, hsame]
  simp [survivors]

end Survivors

namespace Ring

variable {α : Type}

-- What a full ring gives up for the next item: the oldest one, with its place among all items that
-- were ever enqueued.
def overwritten (ring : Ring α) : Option (Nat × α) :=
  if ring.isFull then ring.items.toList.head?.map (ring.enqueued - ring.size, ·) else none

theorem enqueue_cases (ring : Ring α) (item : α) (hc : 0 < ring.capacity)
    (hs : ring.size ≤ ring.capacity) :
    (ring.isFull = false ∧ ring.overwritten = none ∧
      (ring.enqueue item).2.items.toList = ring.items.toList ++ [item]) ∨
    (∃ oldest rest, ring.isFull = true ∧ ring.items.toList = oldest :: rest ∧
      ring.overwritten = some (ring.enqueued - ring.size, oldest) ∧
      (ring.enqueue item).2.items.toList = rest ++ [item]) := by
  have hlen : ring.items.toList.length = ring.size := Fifo.length_toList _
  have hitems : (ring.enqueue item).2.items.toList =
      (ring.items.toList ++ [item]).drop (ring.size + 1 - ring.capacity) := by
    simp [enqueue, hlen]
  by_cases hf : ring.isFull = true
  · right
    have hsize : ring.size = ring.capacity := Nat.le_antisymm hs (of_decide_eq_true hf)
    have hpos : 0 < ring.items.toList.length := by omega
    obtain ⟨oldest, rest, hl⟩ := List.exists_cons_of_length_pos hpos
    refine ⟨oldest, rest, hf, hl, by simp [overwritten, hf, hl], ?_⟩
    rw [hitems, hl, hsize, Nat.add_sub_cancel_left]
    rfl
  · left
    have hlt : ring.size < ring.capacity := Nat.not_le.mp fun h => hf (decide_eq_true h)
    refine ⟨eq_false_of_ne_true hf, by simp [overwritten, hf], ?_⟩
    rw [hitems, Nat.sub_eq_zero_of_le hlt, List.drop_zero]

-- The accounts of a ring: the items that have left it are those that were taken out and those that
-- were given up, the latter with their places.
structure Ledger (ring : Ring α) (gone taken : List α) (lost : List (Nat × α)) : Prop where
  taken_eq : taken = survivors (lost.map Prod.fst) gone
  increasing : (lost.map Prod.fst).Pairwise (· < ·)
  getElem_lost : ∀ entry ∈ lost, gone[entry.1]? = some entry.2
  length_gone : gone.length = taken.length + lost.length
  enqueued : ring.enqueued = gone.length + ring.size
  dequeued : ring.dequeued = taken.length
  dropped : ring.dropped = lost.length
  capacity_pos : 0 < ring.capacity
  size_le : ring.size ≤ ring.capacity

theorem ledger_new {capacity : Nat} (hc : 0 < capacity) (origin : Instant) :
    Ledger (.new capacity origin : Ring α) [] [] [] where
  taken_eq := rfl
  increasing := .nil
  getElem_lost := by simp
  length_gone := rfl
  enqueued := rfl
  dequeued := rfl
  dropped := rfl
  capacity_pos := hc
  size_le := Nat.zero_le _

section Ledger

variable {ring : Ring α} {gone taken : List α} {lost : List (Nat × α)}

theorem Ledger.lost_lt (h : Ledger ring gone taken lost) :
    ∀ place ∈ lost.map Prod.fst, place < gone.length := by
  intro place hm
  obtain ⟨entry, he, rfl⟩ := List.mem_map.mp hm
  exact (List.getElem?_eq_some_iff.mp (h.getElem_lost entry he)).1

theorem Ledger.survivors_eq (h : Ledger ring gone taken lost) :
    survivors (lost.map Prod.fst) (gone ++ ring.items.toList) = taken ++ ring.items.toList := by
  rw [survivors_append _ h.lost_lt, ← h.taken_eq]

theorem Ledger.length_survivors (h : Ledger ring gone taken lost) :
    (gone ++ ring.items.toList).length =
      (survivors (lost.map Prod.fst) (gone ++ ring.items.toList)).length + ring.dropped := by
  rw [h.survivors_eq, List.length_append, List.length_append, h.length_gone, h.dropped]
  omega

theorem Ledger.enqueue_of_room (h : Ledger ring gone taken lost) {item : α}
    (hf : ring.isFull = false)
    (hi : (ring.enqueue item).2.items.toList = ring.items.toList ++ [item]) :
    Ledger (ring.enqueue item).2 gone taken lost := by
  have hlen : ring.items.toList.length = ring.size := Fifo.length_toList _
  have hsize : (ring.enqueue item).2.items.toList.length = (ring.enqueue item).2.size :=
    Fifo.length_toList _
  rw [hi, List.length_append, hlen, List.length_singleton] at hsize
  have henqueued : (ring.enqueue item).2.enqueued = ring.enqueued + 1 := rfl
  have hdropped : (ring.enqueue item).2.dropped = ring.dropped + if ring.isFull then 1 else 0 := rfl
  have hcapacity : (ring.enqueue item).2.capacity = ring.capacity := rfl
  have hlt : ring.size < ring.capacity := Nat.not_le.mp (of_decide_eq_false hf)
  rw [hf, if_neg Bool.false_ne_true, Nat.add_zero] at hdropped
  exact { h with
    enqueued := by rw [henqueued, h.enqueued]; omega
    dequeued := h.dequeued
    dropped := hdropped.trans h.dropped
    size_le := by rw [hcapacity]; omega }

-- The oldest item has the place right behind all those that are gone.
theorem Ledger.enqueue_of_full (h : Ledger ring gone taken lost) {item oldest : α} {rest : List α}
    (hf : ring.isFull = true) (hl : ring.items.toList = oldest :: rest)
    (hi : (ring.enqueue item).2.items.toList = rest ++ [item]) :
    Ledger (ring.enqueue item).2 (gone ++ [oldest]) taken (lost ++ [(gone.length, oldest)]) := by
  have hlen : ring.items.toList.length = ring.size := Fifo.length_toList _
  rw [hl, List.length_cons] at hlen
  have hsize : (ring.enqueue item).2.items.toList.length = (ring.enqueue item).2.size :=
    Fifo.length_toList _
  rw [hi, List.length_append, List.length_singleton] at hsize
  have henqueued : (ring.enqueue item).2.enqueued = ring.enqueued + 1 := rfl
  have hdropped : (ring.enqueue item).2.dropped = ring.dropped + if ring.isFull then 1 else 0 := rfl
  have hcapacity : (ring.enqueue item).2.capacity = ring.capacity := rfl
  rw [hf, if_pos rfl] at hdropped
  constructor
  · rw [h.taken_eq, List.map_append, List.map_singleton, survivors_concat]
  · rw [List.map_append, List.pairwise_append]
    refine ⟨h.increasing, List.pairwise_singleton _ _, fun place hm _ hp => ?_⟩
    rw [List.mem_singleton.mp hp]
    exact h.lost_lt place hm
  · intro entry hm
    rcases List.mem_append.mp hm with hm | hm
    · rw [List.getElem?_append_left (h.lost_lt _ (List.mem_map_of_mem hm))]
      exact h.getElem_lost entry hm
    · rw [List.mem_singleton.mp hm, List.getElem?_concat_length]
  · simp only [List.length_append, List.length_singleton, h.length_gone]
    omega
  · rw [henqueued, h.enqueued, List.length_append, List.length_singleton]
    omega
  · exact h.dequeued
  · rw [hdropped, h.dropped, List.length_append, List.length_singleton]
  · exact h.capacity_pos
  · have hle := h.size_le
    rw [hcapacity]
    omega

theorem Ledger.enqueue (h : Ledger ring gone taken lost) (item : α) :
    gone ++ ring.items.toList ++ [item] =
      (gone ++ ring.overwritten.toList.map Prod.snd) ++ (ring.enqueue item).2.items.toList ∧
    Ledger (ring.enqueue item).2 (gone ++ ring.overwritten.toList.map Prod.snd) taken
      (lost ++ ring.overwritten.toList) := by
  obtain ⟨hf, ho, hi⟩ | ⟨oldest, rest, hf, hl, ho, hi⟩ :=
    ring.enqueue_cases item h.capacity_pos h.size_le
  · simp only [ho, hi, Option.toList_none, List.map_nil, List.append_nil, List.append_assoc,
      true_and]
    exact h.enqueue_of_room hf hi
  · have hplace : ring.enqueued - ring.size = gone.length := by
      rw [h.enqueued, Nat.add_sub_cancel]
    rw [hplace] at ho
    simp only [ho, hi, hl, Option.toList_some, List.map_cons, List.map_nil, List.append_assoc,
      List.cons_append, List.nil_append, true_and]
    exact h.enqueue_of_full hf hl hi

theorem Ledger.dequeueMany (h : Ledger ring gone taken lost) (count : Nat) :
    gone ++ ring.items.toList =
      (gone ++ (ring.dequeueMany count).1) ++ (ring.dequeueMany count).2.items.toList ∧
    Ledger (ring.dequeueMany count).2 (gone ++ (ring.dequeueMany count).1)
      (taken ++ (ring.dequeueMany count).1) lost := by
  have hitems : ring.items.toList =
      (ring.dequeueMany count).1 ++ (ring.dequeueMany count).2.items.toList := by
    simp [Ring.dequeueMany]
  have hsize : (ring.dequeueMany count).2.items.toList.length = (ring.dequeueMany count).2.size :=
    Fifo.length_toList _
  have hlen : ring.items.toList.length = ring.size := Fifo.length_toList _
  rw [hitems, List.length_append] at hlen
  have hdeq : (ring.dequeueMany count).2.dequeued =
    ring.dequeued + (ring.dequeueMany count).1.length := rfl
  have henq : (ring.dequeueMany count).2.enqueued = ring.enqueued := rfl
  refine ⟨by rw [List.append_assoc, ← hitems], ?_⟩
  constructor
  · rw [survivors_append _ h.lost_lt, ← h.taken_eq]
  · exact h.increasing
  · intro entry hm
    rw [List.getElem?_append_left (h.lost_lt _ (List.mem_map_of_mem hm))]
    exact h.getElem_lost entry hm
  · simp only [List.length_append, h.length_gone]
    omega
  · rw [henq, h.enqueued, List.length_append]
    omega
  · rw [hdeq, h.dequeued, List.length_append]
  · exact h.dropped
  · exact h.capacity_pos
  · exact Nat.le_trans (by omega) h.size_le

end Ledger

end Ring

end PacedFeed
