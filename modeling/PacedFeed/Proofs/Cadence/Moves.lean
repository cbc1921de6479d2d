import Mathlib.Data.List.Basic
import PacedFeed.Cadence.Script

-- What can be done to a cadence, by its callbacks and by others, and which subscriptions are live.

namespace PacedFeed

namespace Subscriptions

variable (subscriptions : Subscriptions) (id other : Nat)

theorem isLive_iff : subscriptions.isLive id = true ↔ subscriptions.states[id]? = some .live := by
  simp [isLive]

theorem lt_next_of_isLive (h : subscriptions.isLive id = true) : id < subscriptions.next :=
  (List.getElem?_eq_some_iff.mp ((subscriptions.isLive_iff id).mp h)).1

@[simp] theorem next_issue : subscriptions.issue.next = subscriptions.next + 1 := by
  simp [issue, next]

@[simp] theorem next_cancel : (subscriptions.cancel id).next = subscriptions.next := by
  unfold cancel
  split <;> simp [next]

@[simp] theorem next_drop : (subscriptions.drop id).next = subscriptions.next := by
  simp [drop, next]

theorem isLive_issue :
    subscriptions.issue.isLive other = true ↔
      subscriptions.isLive other = true ∨ other = subscriptions.next := by
  simp only [isLive_iff, issue, next]
  rw [List.getElem?_append]
  split
  · rename_i h
    constructor
    · exact .inl
    · rintro (hl | rfl)
      · exact hl
      · omega
  · rename_i h
    have hnone : subscriptions.states[other]? = Option.none := by
      rw [List.getElem?_eq_none_iff]
      omega
    rw [hnone]
    by_cases he : other = subscriptions.states.length
    · simp [he]
    · have hpos : other - subscriptions.states.length ≠ 0 := by omega
      simp [he, hpos]

theorem isLive_drop :
    (subscriptions.drop id).isLive other = true ↔
      subscriptions.isLive other = true ∧ other ≠ id := by
  simp only [isLive_iff, drop, List.getElem?_set]
  by_cases he : id = other
  · subst he
    simp
  · simp [he, Ne.symm he]

theorem isLive_cancel :
    (subscriptions.cancel id).isLive other = true ↔
      subscriptions.isLive other = true ∧ other ≠ id := by
  unfold cancel
  split
  · simp only [isLive_iff, List.getElem?_set]
    by_cases he : id = other
    · subst he
      simp
    · simp [he, Ne.symm he]
  · rename_i hdead
    constructor
    · intro hl
      refine ⟨hl, ?_⟩
      rintro rfl
      exact hdead hl
    · exact And.left

end Subscriptions

namespace Cadence

variable {κ ω : Type}

-- What is asked of a cadence. It makes no difference to it whether a callback asks or someone else.
inductive Move (κ : Type) where
  | every (interval : Duration) (callback : κ)
  | cancel (id : Nat)
  | drop (id : Nat)

def Move.perform (cadence : Cadence κ) : Move κ → Cadence κ
  | .every interval callback => (cadence.every interval callback).2
  | .cancel id => cadence.cancel id
  | .drop id => cadence.drop id

def performAll (cadence : Cadence κ) (moves : List (Move κ)) : Cadence κ :=
  moves.foldl Move.perform cadence

-- The registrations that some moves make, numbered from the next free number on.
def enlisted : Nat → List (Move κ) → List (Registration κ)
  | _, [] => []
  | id, .every interval callback :: moves => ⟨id, interval, callback⟩ :: enlisted (id + 1) moves
  | id, .cancel _ :: moves | id, .drop _ :: moves => enlisted id moves

-- The same cadence, with other entries in front of its own.
def behind (cadence : Cadence κ) (front : List (Registration κ)) : Cadence κ :=
  { cadence with entries := front ++ cadence.entries }

@[simp] theorem subscriptions_behind (cadence : Cadence κ) (front : List (Registration κ)) :
    (cadence.behind front).subscriptions = cadence.subscriptions :=
  rfl

-- The newest of them that is live.
theorem lastInterval?_eq (cadence : Cadence κ) :
    cadence.lastInterval? =
      (cadence.entries.filter cadence.isLive).getLast?.map Registration.interval := by
  rw [lastInterval?, ← List.head?_filter, List.filter_reverse, List.head?_reverse]

section Moves

variable (cadence : Cadence κ) (front : List (Registration κ)) (moves : List (Move κ))

theorem perform_behind (move : Move κ) :
    move.perform (cadence.behind front) = (move.perform cadence).behind front := by
  cases move <;> simp [Move.perform, behind, every, cancel, drop]

theorem performAll_behind :
    (cadence.behind front).performAll moves = (cadence.performAll moves).behind front := by
  unfold performAll
  induction moves generalizing cadence with
  | nil => rfl
  | cons move moves ih => rw [List.foldl_cons, perform_behind, ih, List.foldl_cons]

-- New registrations go to the end, in the order in which they were made.
theorem entries_performAll :
    (cadence.performAll moves).entries =
      cadence.entries ++ enlisted cadence.subscriptions.next moves := by
  unfold performAll
  induction moves generalizing cadence with
  | nil => simp [enlisted]
  | cons move moves ih =>
      rw [List.foldl_cons, ih]
      cases move <;> simp [Move.perform, every, cancel, drop, enlisted]

end Moves

end Cadence

namespace Action

def move : Action → Cadence.Move ScriptedCallback
  | .cancel id => .cancel id
  | .drop id => .drop id
  | .register interval script => .every interval script.callback

theorem perform_eq (cadence : Cadence ScriptedCallback) (action : Action) :
    action.perform cadence = action.move.perform cadence := by
  cases action <;> rfl

end Action

-- What a scripted callback does when it is called.
def ScriptedCallback.moves (entry : Registration ScriptedCallback) :
    List (Cadence.Move ScriptedCallback) :=
  (entry.callback.script.actionsAt (entry.callback.calls + 1)).map Action.move

theorem ScriptedCallback.cadence_call (entry : Registration ScriptedCallback)
    (cadence : Cadence ScriptedCallback) (world : Unit) :
    (call entry cadence world).cadence = cadence.performAll (moves entry) := by
  have hcall : (call entry cadence world).cadence =
      (entry.callback.script.actionsAt (entry.callback.calls + 1)).foldl Action.perform cadence :=
    rfl
  have hperform : Action.perform = fun cadence action => action.move.perform cadence := by
    funext cadence action
    exact action.perform_eq cadence
  rw [hcall, moves, Cadence.performAll, List.foldl_map, hperform]

end PacedFeed
