namespace PacedFeed

-- A first-in first-out queue. New items go on `back`, newest first; items leave from
-- `front`, oldest first. Its meaning is the list `toList`, oldest item first.
structure Fifo (α : Type) where
  front : List α
  back : List α
  size : Nat
  size_eq : size = front.length + back.length

namespace Fifo

variable {α : Type}

def empty : Fifo α :=
  ⟨[], [], 0, rfl⟩

instance : Inhabited (Fifo α) := ⟨empty⟩

def ofList (items : List α) : Fifo α :=
  ⟨items, [], items.length, rfl⟩

def toList (queue : Fifo α) : List α :=
  queue.front ++ queue.back.reverse

def isEmpty (queue : Fifo α) : Bool :=
  queue.size == 0

def push (queue : Fifo α) (item : α) : Fifo α :=
  ⟨queue.front, item :: queue.back, queue.size + 1, by
    simp only [List.length_cons, queue.size_eq]
    omega⟩

-- Takes the oldest item out.
def pop? : Fifo α → Option (α × Fifo α)
  | ⟨item :: front, back, size, size_eq⟩ =>
    some (item, ⟨front, back, size - 1, by
      simp only [List.length_cons] at size_eq
      omega⟩)
  | ⟨[], back, _, _⟩ =>
    match back.reverse with
    | item :: front => some (item, ofList front)
    | [] => none

def appendList (queue : Fifo α) (items : List α) : Fifo α :=
  items.foldl push queue

private def popManyAux : Nat → Fifo α → List α → List α × Fifo α
  | 0, queue, taken => (taken.reverse, queue)
  | count + 1, queue, taken =>
    match queue.pop? with
    | none => (taken.reverse, queue)
    | some (item, rest) => popManyAux count rest (item :: taken)

-- Takes out the oldest `count` items, or all of them if there are fewer.
def popMany (queue : Fifo α) (count : Nat) : List α × Fifo α :=
  popManyAux count queue []

-- Drops the oldest items until at most `limit` are left.
def keepNewest (queue : Fifo α) (limit : Nat) : Fifo α :=
  (queue.popMany (queue.size - limit)).2

@[simp] theorem toList_empty : (empty : Fifo α).toList = [] := rfl

@[simp] theorem toList_ofList (items : List α) : (ofList items).toList = items := by
  simp [ofList, toList]

theorem length_toList (queue : Fifo α) : queue.toList.length = queue.size := by
  simp [toList, queue.size_eq]

theorem isEmpty_iff (queue : Fifo α) : queue.isEmpty = true ↔ queue.toList = [] := by
  rw [← List.length_eq_zero_iff, length_toList]
  simp [isEmpty]

@[simp] theorem toList_push (queue : Fifo α) (item : α) :
    (queue.push item).toList = queue.toList ++ [item] := by
  simp [push, toList]

@[simp] theorem toList_appendList (queue : Fifo α) (items : List α) :
    (queue.appendList items).toList = queue.toList ++ items := by
  unfold appendList
  induction items generalizing queue with
  | nil => simp
  | cons item rest ih => simp [ih]

theorem size_appendList (queue : Fifo α) (items : List α) :
    (queue.appendList items).size = queue.size + items.length := by
  rw [← length_toList, toList_appendList, List.length_append, length_toList]

theorem pop?_eq_none {queue : Fifo α} (h : queue.pop? = none) : queue.toList = [] := by
  unfold pop? at h
  split at h
  · cases h
  · split at h
    · cases h
    · rename_i hb
      simp [toList, hb]

theorem toList_of_pop? {queue rest : Fifo α} {item : α} (h : queue.pop? = some (item, rest)) :
    queue.toList = item :: rest.toList := by
  unfold pop? at h
  split at h
  · cases h
    rfl
  · split at h
    · rename_i hb
      cases h
      simp [toList, hb, ofList]
    · cases h

private theorem popManyAux_fst (count : Nat) (queue : Fifo α) (taken : List α) :
    (popManyAux count queue taken).1 = taken.reverse ++ queue.toList.take count := by
  induction count generalizing queue taken with
  | zero => simp [popManyAux]
  | succ count ih =>
    unfold popManyAux
    split
    · rename_i h
      simp [pop?_eq_none h]
    · rename_i h
      simp [ih, toList_of_pop? h]

private theorem popManyAux_snd (count : Nat) (queue : Fifo α) (taken : List α) :
    (popManyAux count queue taken).2.toList = queue.toList.drop count := by
  induction count generalizing queue taken with
  | zero => simp [popManyAux]
  | succ count ih =>
    unfold popManyAux
    split
    · rename_i h
      simp [pop?_eq_none h]
    · rename_i h
      simp [ih, toList_of_pop? h]

@[simp] theorem popMany_fst (queue : Fifo α) (count : Nat) :
    (queue.popMany count).1 = queue.toList.take count := by
  simp [popMany, popManyAux_fst]

@[simp] theorem toList_popMany_snd (queue : Fifo α) (count : Nat) :
    (queue.popMany count).2.toList = queue.toList.drop count := by
  simp [popMany, popManyAux_snd]

-- What was taken before stands in front of what is taken from here on.
private theorem popManyAux_eq (count : Nat) (queue : Fifo α) (taken : List α) :
    popManyAux count queue taken =
      (taken.reverse ++ (popManyAux count queue []).1, (popManyAux count queue []).2) := by
  induction count generalizing queue taken with
  | zero => simp [popManyAux]
  | succ count ih =>
    unfold popManyAux
    split
    · simp
    · rename_i item rest h
      rw [ih rest (item :: taken), ih rest [item]]
      simp

-- Taking many out is taking one out after the other.
theorem popMany_succ (queue : Fifo α) (count : Nat) :
    queue.popMany (count + 1) =
      match queue.pop? with
      | none => ([], queue)
      | some (item, rest) => (item :: (rest.popMany count).1, (rest.popMany count).2) := by
  unfold popMany
  rw [popManyAux]
  split
  · rfl
  · rw [popManyAux_eq]
    rfl

@[simp] theorem toList_keepNewest (queue : Fifo α) (limit : Nat) :
    (queue.keepNewest limit).toList = queue.toList.drop (queue.toList.length - limit) := by
  simp [keepNewest, length_toList]

-- A queue with the newest of some items goes on to hold the newest.
theorem toList_keepNewest_push {queue : Fifo α} {limit : Nat} {items : List α}
    (h : queue.toList = items.drop (items.length - limit)) (item : α) :
    ((queue.push item).keepNewest limit).toList =
      (items ++ [item]).drop ((items ++ [item]).length - limit) := by
  have hle : items.length - limit ≤ items.length := Nat.sub_le _ _
  rw [toList_keepNewest, toList_push, h, List.length_append, List.length_append, List.length_drop,
    List.length_singleton, ← List.drop_append_of_le_length hle, List.drop_drop]
  congr 1
  omega

theorem size_keepNewest (queue : Fifo α) (limit : Nat) :
    (queue.keepNewest limit).size = min queue.size limit := by
  rw [← length_toList, toList_keepNewest, List.length_drop, length_toList]
  omega

end Fifo

end PacedFeed
