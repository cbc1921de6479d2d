import PacedFeed.Proofs.Window.Viewport

-- A window ends up the same however the messages were divided that it was given to append.

namespace PacedFeed.Window

-- Windows that may differ in the layout of their log, but in nothing that it holds.
structure Alike (first second : Window) : Prop where
  log : first.log.toList = second.log.toList
  viewportSize : first.viewportSize = second.viewportSize
  maxRetained : first.maxRetained = second.maxRetained
  followTail : first.followTail = second.followTail
  offset : first.offset = second.offset
  baseSeq : first.baseSeq = second.baseSeq
  appended : first.appended = second.appended
  evicted : first.evicted = second.evicted

section Alike

variable {first second third : Window}

theorem Alike.refl (window : Window) : Alike window window :=
  ⟨rfl, rfl, rfl, rfl, rfl, rfl, rfl, rfl⟩

theorem Alike.trans (h : Alike first second) (hnext : Alike second third) :
    Alike first third where
  log := h.log.trans hnext.log
  viewportSize := h.viewportSize.trans hnext.viewportSize
  maxRetained := h.maxRetained.trans hnext.maxRetained
  followTail := h.followTail.trans hnext.followTail
  offset := h.offset.trans hnext.offset
  baseSeq := h.baseSeq.trans hnext.baseSeq
  appended := h.appended.trans hnext.appended
  evicted := h.evicted.trans hnext.evicted

theorem Alike.size (h : Alike first second) : first.size = second.size := by
  rw [Window.size, Window.size, ← Fifo.length_toList, ← Fifo.length_toList, h.log]

theorem Alike.maxOffset (h : Alike first second) : first.maxOffset = second.maxOffset := by
  rw [Window.maxOffset, Window.maxOffset, h.size, h.viewportSize]

theorem Alike.reposition (h : Alike first second) : Alike first.reposition second.reposition where
  log := h.log
  viewportSize := h.viewportSize
  maxRetained := h.maxRetained
  followTail := h.followTail
  offset := by simp only [Window.reposition, h.followTail, h.offset, h.maxOffset]
  baseSeq := h.baseSeq
  appended := h.appended
  evicted := h.evicted

theorem Alike.append (h : Alike first second) (messages : List Message) :
    Alike (first.append messages).2 (second.append messages).2 := by
  have hexcess : (first.log.appendList messages).size - first.maxRetained =
      (second.log.appendList messages).size - second.maxRetained := by
    rw [Fifo.size_appendList, Fifo.size_appendList, h.maxRetained]
    exact congrArg (· + _ - _) h.size
  refine Alike.reposition ⟨?_, h.viewportSize, h.maxRetained, h.followTail, h.offset, ?_, ?_, ?_⟩
  · simp only [Fifo.toList_keepNewest, Fifo.toList_appendList, h.log, h.maxRetained]
  · exact congrArg₂ (· + ·) h.baseSeq hexcess
  · exact congrArg (· + _) h.appended
  · exact congrArg₂ (· + ·) h.evicted hexcess

theorem Alike.replace (h : Alike first second) (messages : List Message) :
    Alike (first.replace messages) (second.replace messages) := by
  refine Alike.reposition ⟨?_, h.viewportSize, h.maxRetained, h.followTail, h.offset, ?_, rfl, ?_⟩
  · simp only [Fifo.toList_ofList, h.maxRetained]
  · exact congrArg (messages.length - ·) h.maxRetained
  · exact congrArg₂ (· + ·) h.evicted (congrArg (messages.length - ·) h.maxRetained)

theorem Alike.step (h : Alike first second) (step : Step) :
    Alike (first.step step) (second.step step) := by
  cases step with
  | append messages => exact h.append messages
  | appendBatch batch => exact h.append batch.messages
  | replace messages => exact h.replace messages
  | scrollTo offset =>
      refine { h with offset := ?_ }
      exact congrArg₂ (clampOffset offset) h.size h.viewportSize
  | scrollToBottom => exact { h with offset := h.maxOffset }
  | setFollowTail follow => exact Alike.reposition { h with followTail := rfl }

theorem Alike.run (h : Alike first second) (steps : List Step) :
    Alike (first.run steps) (second.run steps) := by
  induction steps generalizing first second with
  | nil => exact h
  | cons next steps ih => exact ih (h.step next)

end Alike

-- What the first part already pushes out, the second does not have to.
theorem append_append_fst (window : Window) (first second : List Message) :
    (window.append (first ++ second)).1 =
      (window.append first).1 + ((window.append first).2.append second).1 := by
  have hmax : (window.append first).2.maxRetained = window.maxRetained := rfl
  simp only [append_fst, size_append, List.length_append, hmax]
  omega

theorem run_append (window : Window) (first second : List Step) :
    window.run (first ++ second) = (window.run first).run second :=
  List.foldl_append

section InView

variable {config : WindowConfig} {window other : Window} {history : List Message}

-- The history tells everything but where the view is and how much went in all.
theorem InView.alike (h : InView config window history) (hother : InView config other history)
    (hfollow : window.followTail = other.followTail) (hoffset : window.offset = other.offset)
    (hevicted : window.evicted = other.evicted) : Alike window other where
  log := h.log.trans hother.log.symm
  viewportSize := h.viewportSize.trans hother.viewportSize.symm
  maxRetained := h.maxRetained.trans hother.maxRetained.symm
  followTail := hfollow
  offset := hoffset
  baseSeq := h.baseSeq.trans hother.baseSeq.symm
  appended := h.appended.trans hother.appended.symm
  evicted := hevicted

theorem InView.maxOffset_eq (h : InView config window history)
    (hother : InView config other history) : window.maxOffset = other.maxOffset := by
  rw [maxOffset, maxOffset, h.toRetains.size, hother.toRetains.size, h.viewportSize,
    hother.viewportSize]

-- Following the tail, the view goes to the bottom in the end. Else it has stayed where it was.
theorem InView.offset_append_append (h : InView config window history)
    (first second : List Message) :
    (window.append (first ++ second)).2.offset =
      ((window.append first).2.append second).2.offset := by
  cases hf : window.followTail with
  | true =>
      have honce : (window.append (first ++ second)).2.isAtBottom = true :=
        isAtBottom_reposition _ hf
      have htwice : ((window.append first).2.append second).2.isAtBottom = true :=
        isAtBottom_reposition _ hf
      have hmax : (window.append (first ++ second)).2.maxOffset =
          ((window.append first).2.append second).2.maxOffset := by
        refine (h.append (first ++ second)).maxOffset_eq ?_
        rw [← List.append_assoc]
        exact (h.append first).append second
      rw [of_decide_eq_true honce, of_decide_eq_true htwice, hmax]
  | false =>
      rw [h.offset_append _ hf, (h.append first).offset_append second hf, h.offset_append _ hf]

theorem InView.append_append (h : InView config window history) (first second : List Message) :
    Alike (window.append (first ++ second)).2 ((window.append first).2.append second).2 := by
  have htwice := (h.append first).append second
  rw [List.append_assoc] at htwice
  refine (h.append (first ++ second)).alike htwice rfl (h.offset_append_append first second) ?_
  change window.evicted + (window.append (first ++ second)).1 =
    window.evicted + (window.append first).1 + ((window.append first).2.append second).1
  rw [append_append_fst, Nat.add_assoc]

-- Without any chunk there would be no append at all, and thus none that follows the tail.
theorem InView.append_flatten (h : InView config window history) {chunks : List (List Message)}
    (hne : chunks ≠ []) :
    Alike (window.append chunks.flatten).2 (window.run (chunks.map .append)) ∧
      (window.append chunks.flatten).1 =
        (trace Window.step evictions window (chunks.map .append)).sum := by
  induction chunks, hne using List.recNeNil generalizing window history with
  | singleton chunk =>
      rw [List.flatten_singleton]
      exact ⟨.refl _, List.sum_singleton.symm⟩
  | cons chunk rest _ ih =>
      obtain ⟨halike, hcount⟩ := ih (h.append chunk)
      rw [List.flatten_cons, List.map_cons, trace, List.sum_append, append_append_fst]
      exact ⟨(h.append_append chunk rest.flatten).trans halike,
        congrArg₂ (· + ·) List.sum_singleton.symm hcount⟩

theorem InView.run_append (h : InView config window history) (chunks : List (List Message)) :
    InView config (window.run (chunks.map .append)) (history ++ chunks.flatten) := by
  induction chunks generalizing window history with
  | nil => rwa [List.flatten_nil, List.append_nil]
  | cons chunk rest ih =>
      have hrest := ih (h.append chunk)
      rwa [List.append_assoc, ← List.flatten_cons] at hrest

end InView

-- As long as the log only grows at its end, the oldest retained message is known by the number
-- of those that went.
theorem evicted_run_append {window : Window} (h : window.evicted = window.baseSeq)
    (chunks : List (List Message)) :
    (window.run (chunks.map .append)).evicted = (window.run (chunks.map .append)).baseSeq := by
  induction chunks generalizing window with
  | nil => exact h
  | cons chunk rest ih => exact ih (congrArg (· + _) h)

-- Appending at once and in chunks are the same, also for all that is done later. Starting over
-- with given messages is the same as appending them to a new window, but for the messages that
-- went before.
theorem append_of_chunks {config : WindowConfig} {window : Window}
    (hw : create config = .ok window) (steps : List Step) :
    let state := window.run steps
    (∀ first second : List Message,
      let once := state.append (first ++ second)
      let begun := state.append first
      let ended := begun.2.append second
      Alike once.2 ended.2 ∧ once.1 = begun.1 + ended.1) ∧
    (∀ chunks : List (List Message), chunks ≠ [] →
      let pieces := chunks.map Step.append
      let once := state.append chunks.flatten
      once.1 = (trace step evictions state pieces).sum ∧
      ∀ later, Alike (once.2.run later) (state.run (pieces ++ later))) ∧
    ∀ chunks : List (List Message),
      let pieces := chunks.map Step.append
      let replaced := state.replace chunks.flatten
      let fresh := window.run pieces
      replaced.log.toList = fresh.log.toList ∧ replaced.baseSeq = fresh.baseSeq ∧
      replaced.appended = fresh.appended ∧
      replaced.evicted = state.evicted + (trace step evictions window pieces).sum := by
  intro state
  obtain ⟨_, rfl⟩ := create_eq_ok_iff.mp hw
  have h : InView config state (steps.foldl remember []) := inView_run steps
  refine ⟨fun first second => ⟨h.append_append first second, append_append_fst _ _ _⟩,
    fun chunks hne => ?_, fun chunks => ?_⟩
  · obtain ⟨halike, hcount⟩ := h.append_flatten hne
    refine ⟨hcount, fun later => ?_⟩
    rw [run_append]
    exact halike.run later
  · intro pieces replaced fresh
    have hreplaced : InView config replaced chunks.flatten := h.replace _
    have hfresh : InView config fresh chunks.flatten := (inView_new config).run_append chunks
    have hcount : fresh.evicted = (trace step evictions (new config) pieces).sum := by
      have hevicted := evicted_run (new config) pieces
      rwa [show (new config).evicted = 0 from rfl, Nat.zero_add] at hevicted
    refine ⟨hreplaced.log.trans hfresh.log.symm, hreplaced.baseSeq.trans hfresh.baseSeq.symm,
      hreplaced.appended.trans hfresh.appended.symm, ?_⟩
    calc replaced.evicted
      _ = state.evicted + replaced.baseSeq := rfl
      _ = state.evicted + fresh.baseSeq := by rw [hreplaced.baseSeq, hfresh.baseSeq]
      _ = state.evicted + fresh.evicted := by rw [evicted_run_append rfl chunks]
      _ = state.evicted + (trace step evictions (new config) pieces).sum := by rw [hcount]

theorem append_of_chunks_above_cap :
    let message : String → Message := fun id => ⟨id, .user, .chunk, "x", 0, []⟩
    let config : WindowConfig := { viewportSize := 2, maxRetained := 3, followTail := true }
    let steps : List Step :=
      [.append [message "a", message "b", message "c"], .scrollTo (-1)]
    let chunks : List (List Message) :=
      [[message "d"], [], [message "e", message "f", message "g", message "h"], [message "i"]]
    let state := (new config).run steps
    let once := state.append chunks.flatten
    create config = .ok (new config) ∧ chunks ≠ [] ∧
    once.1 = (trace step evictions state (chunks.map .append)).sum ∧ once.1 = 6 ∧
    ∀ later, Alike (once.2.run later) (state.run (chunks.map .append ++ later)) := by
  intro message config steps chunks state once
  have hw : create config = .ok (new config) := create_eq_ok_iff.mpr ⟨rfl, rfl⟩
  have hne : chunks ≠ [] := List.cons_ne_nil _ _
  obtain ⟨-, hchunks, -⟩ := append_of_chunks hw steps
  obtain ⟨hcount, halike⟩ := hchunks chunks hne
  exact ⟨hw, hne, hcount, rfl, halike⟩

end PacedFeed.Window
