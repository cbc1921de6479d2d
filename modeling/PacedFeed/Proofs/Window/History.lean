import Mathlib.Algebra.GroupWithZero.Nat
import Mathlib.Data.List.Basic
import PacedFeed.Window

-- The messages that a window was given, and the part of them that it retains.

namespace PacedFeed.Window

def appendBatches (window : Window) (batches : List Batch) : Window :=
  batches.foldl (fun window batch => (window.appendBatch batch).2) window

-- The log is the newest part of the history, as much of it as the limit allows.
structure Retains (limit : Nat) (window : Window) (history : List Message) : Prop where
  maxRetained : window.maxRetained = limit
  log : window.log.toList = history.drop (history.length - limit)
  appended : window.appended = history.length
  baseSeq : window.baseSeq = history.length - limit

theorem retains_new (config : WindowConfig) : Retains config.maxRetained (.new config) [] where
  maxRetained := rfl
  log := List.drop_nil.symm
  appended := rfl
  baseSeq := (Nat.zero_sub _).symm

section Retains

variable {limit : Nat} {window : Window} {history : List Message}

theorem Retains.size (h : Retains limit window history) :
    window.size = min history.length limit := by
  rw [Window.size, ← Fifo.length_toList, h.log, List.length_drop]
  omega

theorem Retains.suffix (h : Retains limit window history) : window.log.toList <:+ history := by
  rw [h.log]
  exact List.drop_suffix _ _

theorem Retains.append (h : Retains limit window history) (messages : List Message) :
    Retains limit (window.append messages).2 (history ++ messages) := by
  have hsize : (window.log.appendList messages).size =
      min history.length limit + messages.length := by
    rw [← h.size, Window.size, Fifo.size_appendList]
  -- what went before and what goes now make up what is in excess in all
  have hexcess : history.length - limit +
      (min history.length limit + messages.length - limit) =
        history.length + messages.length - limit := by omega
  constructor
  · exact h.maxRetained
  · have hkept : (history.drop (history.length - limit)).length = min history.length limit := by
      rw [← h.log, Fifo.length_toList]
      exact h.size
    have hlog : (window.append messages).2.log.toList =
        (history.drop (history.length - limit) ++ messages).drop
          (min history.length limit + messages.length - limit) := by
      simp only [Window.append, reposition, Fifo.toList_keepNewest, Fifo.toList_appendList, h.log,
        h.maxRetained, List.length_append, hkept]
    rw [hlog, ← List.drop_append_of_le_length (Nat.sub_le _ _), List.drop_drop, hexcess,
      List.length_append]
  · simp only [Window.append, reposition, h.appended, List.length_append]
  · simp only [Window.append, reposition, h.baseSeq, h.maxRetained, hsize, List.length_append]
    exact hexcess

-- Replacing the log begins a new history.
theorem retains_replace (window : Window) (messages : List Message) :
    Retains window.maxRetained (window.replace messages) messages where
  maxRetained := rfl
  log := Fifo.toList_ofList _
  appended := rfl
  baseSeq := rfl

theorem Retains.appendBatches (h : Retains limit window history) (batches : List Batch) :
    Retains limit (window.appendBatches batches) (history ++ batches.flatMap Batch.messages) := by
  induction batches generalizing window history with
  | nil => simpa [Window.appendBatches] using h
  | cons batch batches ih =>
      have hr := ih (h.append batch.messages)
      rwa [List.append_assoc] at hr

-- Looking at another part of the log leaves it as it is.
theorem Retains.scrollTo (h : Retains limit window history) (offset : Int) :
    Retains limit (window.scrollTo offset).2 history :=
  ⟨h.maxRetained, h.log, h.appended, h.baseSeq⟩

theorem Retains.scrollToBottom (h : Retains limit window history) :
    Retains limit window.scrollToBottom.2 history :=
  ⟨h.maxRetained, h.log, h.appended, h.baseSeq⟩

theorem Retains.setFollowTail (h : Retains limit window history) (follow : Bool) :
    Retains limit (window.setFollowTail follow) history :=
  ⟨h.maxRetained, h.log, h.appended, h.baseSeq⟩

end Retains

-- As long as the log is never replaced, the oldest retained message is known by the number of
-- those that went.
theorem evicted_appendBatches {window : Window} (h : window.evicted = window.baseSeq)
    (batches : List Batch) :
    (window.appendBatches batches).evicted = (window.appendBatches batches).baseSeq := by
  induction batches generalizing window with
  | nil => exact h
  | cons batch batches ih => exact ih (congrArg (· + _) h)

end PacedFeed.Window
