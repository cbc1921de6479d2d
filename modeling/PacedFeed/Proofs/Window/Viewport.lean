import Mathlib.Algebra.GroupWithZero.Nat
import PacedFeed.Proofs.Trace
import PacedFeed.Proofs.Window.History

-- Everything that can be done with a window, and what is in view afterwards.

namespace PacedFeed.Window

inductive Step where
  | append (messages : List Message)
  | appendBatch (batch : Batch)
  | replace (messages : List Message)
  | scrollTo (offset : Int)
  | scrollToBottom
  | setFollowTail (follow : Bool)

def step (window : Window) : Step → Window
  | .append messages => (window.append messages).2
  | .appendBatch batch => (window.appendBatch batch).2
  | .replace messages => window.replace messages
  | .scrollTo offset => (window.scrollTo offset).2
  | .scrollToBottom => window.scrollToBottom.2
  | .setFollowTail follow => window.setFollowTail follow

def run (window : Window) (steps : List Step) : Window :=
  steps.foldl step window

-- What was last put in the place of everything, and what was appended since.
def remember (history : List Message) : Step → List Message
  | .append messages => history ++ messages
  | .appendBatch batch => history ++ batch.messages
  | .replace messages => messages
  | _ => history

-- How many messages a step says that it evicted, or how many of those that it was given to start
-- over with it did not retain.
def evictions (window : Window) : Step → List Nat
  | .append messages => [(window.append messages).1]
  | .appendBatch batch => [(window.appendBatch batch).1]
  | .replace messages => [messages.length - (window.replace messages).size]
  | _ => []

-- Whether a step follows the tail if that is asked for.
def Step.mayFollow : Step → Bool
  | .append _ | .appendBatch _ | .replace _ | .setFollowTail _ => true
  | .scrollTo _ | .scrollToBottom => false

def Step.appends : Step → Bool
  | .append _ | .appendBatch _ => true
  | _ => false

section Reposition

variable (window : Window)

theorem offset_reposition_le : window.reposition.offset ≤ window.reposition.maxOffset := by
  change (if window.followTail then window.maxOffset else min window.offset window.maxOffset) ≤
    window.maxOffset
  split
  · exact Nat.le_refl _
  · exact Nat.min_le_right _ _

theorem isAtBottom_reposition (h : window.followTail = true) :
    window.reposition.isAtBottom = true := by
  have hoffset : window.reposition.offset = window.reposition.maxOffset := by
    simp only [reposition, h, if_true]
    rfl
  exact decide_eq_true hoffset

theorem size_replace (messages : List Message) :
    (window.replace messages).size = messages.length - (messages.length - window.maxRetained) := by
  rw [size, ← Fifo.length_toList]
  simp [replace, reposition]

theorem size_append (messages : List Message) :
    (window.append messages).2.size = min (window.size + messages.length) window.maxRetained := by
  change (Fifo.keepNewest _ _).size = _
  rw [Fifo.size_keepNewest, Fifo.size_appendList, size]

-- An append reports as many messages as do not stay.
theorem append_fst (messages : List Message) :
    (window.append messages).1 =
      window.size + messages.length - (window.append messages).2.size := by
  have hexcess : (window.append messages).1 =
      (window.log.appendList messages).size - window.maxRetained := rfl
  rw [hexcess, Fifo.size_appendList, size_append, size]
  omega

end Reposition

theorem create_eq_ok_iff {config : WindowConfig} {window : Window} :
    create config = .ok window ↔ config.fault? = none ∧ window = new config := by
  unfold create
  cases config.fault? with
  | none => simp [eq_comm]
  | some fault => simp

-- The log is the end of the history, and the view lies inside the log.
structure InView (config : WindowConfig) (window : Window) (history : List Message) : Prop
    extends Retains config.maxRetained window history where
  viewportSize : window.viewportSize = config.viewportSize
  offset_le : window.offset ≤ window.maxOffset

theorem inView_new (config : WindowConfig) : InView config (.new config) [] where
  toRetains := retains_new config
  viewportSize := rfl
  offset_le := Nat.zero_le _

section InView

variable {config : WindowConfig} {window : Window} {history : List Message}

theorem InView.append (h : InView config window history) (messages : List Message) :
    InView config (window.append messages).2 (history ++ messages) where
  toRetains := h.toRetains.append messages
  viewportSize := h.viewportSize
  offset_le := offset_reposition_le _

theorem InView.replace (h : InView config window history) (messages : List Message) :
    InView config (window.replace messages) messages where
  toRetains := h.maxRetained ▸ window.retains_replace messages
  viewportSize := h.viewportSize
  offset_le := offset_reposition_le _

theorem InView.step (h : InView config window history) (step : Step) :
    InView config (window.step step) (remember history step) := by
  cases step with
  | append messages => exact h.append messages
  | appendBatch batch => exact h.append batch.messages
  | replace messages => exact h.replace messages
  | scrollTo offset =>
      exact ⟨h.toRetains.scrollTo offset, h.viewportSize, Nat.min_le_right _ _⟩
  | scrollToBottom => exact ⟨h.toRetains.scrollToBottom, h.viewportSize, Nat.le_refl _⟩
  | setFollowTail follow =>
      exact ⟨h.toRetains.setFollowTail follow, h.viewportSize, offset_reposition_le _⟩

theorem inView_run (steps : List Step) :
    InView config (run (.new config) steps) (steps.foldl remember []) := by
  induction steps using List.reverseRecOn with
  | nil => exact inView_new config
  | append_singleton steps step ih =>
      rw [run, List.foldl_append, List.foldl_append]
      exact ih.step step

-- What is in view is a part of the history, told by absolute places.
theorem InView.visible_eq (h : InView config window history) :
    window.visible = (history.drop (window.baseSeq + window.offset)).take config.viewportSize := by
  rw [visible, range, h.viewportSize, h.log, List.drop_drop, h.baseSeq]

theorem InView.length_visible (h : InView config window history) :
    window.visible.length = min config.viewportSize window.size := by
  have hoffset := h.offset_le
  rw [maxOffset, h.viewportSize] at hoffset
  rw [visible, range, h.viewportSize, List.length_take, List.length_drop, Fifo.length_toList]
  change min _ (window.size - _) = _
  omega

-- An append that does not follow the tail makes room for the old offset at least.
theorem InView.offset_append (h : InView config window history) (messages : List Message)
    (hf : window.followTail = false) : (window.append messages).2.offset = window.offset := by
  have hoffset := h.offset_le
  have hsize := h.toRetains.size
  have hnext := (h.toRetains.append messages).size
  rw [List.length_append] at hnext
  have hmax : window.maxOffset ≤ (window.append messages).2.maxOffset := by
    change window.size - window.viewportSize ≤
      (window.append messages).2.size - window.viewportSize
    omega
  have hmin : (window.append messages).2.offset =
      min window.offset (window.append messages).2.maxOffset := by
    simp only [Window.append, reposition, hf, Bool.false_eq_true, if_false]
    rfl
  omega

end InView

theorem evicted_step (window : Window) (step : Step) :
    (window.step step).evicted = window.evicted + (window.evictions step).sum := by
  cases step with
  | replace messages =>
      simp only [evictions, List.sum_singleton, size_replace]
      change window.evicted + (messages.length - window.maxRetained) = _
      omega
  | append messages => exact congrArg (window.evicted + ·) (List.sum_singleton).symm
  | appendBatch batch => exact congrArg (window.evicted + ·) (List.sum_singleton).symm
  | _ => rfl

theorem evicted_run (window : Window) (steps : List Step) :
    (window.run steps).evicted =
      window.evicted + (trace step evictions window steps).sum := by
  induction steps generalizing window with
  | nil => rfl
  | cons next steps ih =>
      change ((window.step next).run steps).evicted = _
      rw [ih, evicted_step, trace, List.sum_append, Nat.add_assoc]

theorem isAtBottom_step (window : Window) {step : Step} (hs : step.mayFollow = true)
    (hf : (window.step step).followTail = true) : (window.step step).isAtBottom = true := by
  cases step with
  | append | appendBatch | replace | setFollowTail => exact isAtBottom_reposition _ hf
  | _ => cases hs

-- The window tells where its log lies in the history, and its view is a part of that log. What
-- appends and follows the tail ends at the bottom. Without following, the view stays where it is.
theorem view_of_history {config : WindowConfig} {window : Window}
    (hw : create config = .ok window) (steps : List Step) :
    let state := window.run steps
    let history := steps.foldl remember []
    state.appended = history.length ∧
    state.baseSeq = history.length - config.maxRetained ∧
    state.log.toList = history.drop state.baseSeq ∧
    state.evicted = (trace step evictions window steps).sum ∧
    (∀ messages, (state.append messages).1 =
      state.size + messages.length - (state.append messages).2.size) ∧
    (∀ next, state.evicted ≤ (state.step next).evicted) ∧
    state.maxOffset = state.size - config.viewportSize ∧
    state.offset ≤ state.maxOffset ∧
    state.visible =
      (history.drop (state.baseSeq + state.offset)).take config.viewportSize ∧
    state.visible.length = min config.viewportSize state.size ∧
    (∀ next : Step, next.mayFollow = true → (state.step next).followTail = true →
      (state.step next).isAtBottom = true) ∧
    ∀ next : Step, next.appends = true → state.followTail = false →
      (state.step next).offset = state.offset := by
  intro state history
  obtain ⟨_, rfl⟩ := create_eq_ok_iff.mp hw
  have h : InView config state history := inView_run steps
  refine ⟨h.appended, h.baseSeq, ?_, ?_, state.append_fst, fun next => ?_, ?_, h.offset_le,
    h.visible_eq, h.length_visible, fun next => state.isAtBottom_step, fun next hs hf => ?_⟩
  · rw [h.baseSeq]
    exact h.log
  · have hevicted := evicted_run (.new config) steps
    rwa [show (new config).evicted = 0 from rfl, Nat.zero_add] at hevicted
  · rw [evicted_step]
    exact Nat.le_add_right _ _
  · rw [maxOffset, h.viewportSize]
  · cases next with
    | append messages => exact h.offset_append messages hf
    | appendBatch batch => exact h.offset_append batch.messages hf
    | _ => cases hs

theorem view_of_history_replaced :
    let message : String → Message := fun id => ⟨id, .user, .chunk, "x", 0, []⟩
    let config : WindowConfig := { viewportSize := 2, maxRetained := 3 }
    let steps : List Step :=
      [.append [message "a", message "b", message "c", message "d"], .scrollTo 1,
        .replace [message "e", message "f", message "g", message "h", message "i"], .scrollTo (-7),
        .appendBatch ⟨1, [message "j"], 0, .flush, 1⟩, .setFollowTail true,
        .append [message "k"], .scrollToBottom, .setFollowTail false]
    let state := (new config).run steps
    create config = .ok (new config) ∧
    state.log.toList = (steps.foldl remember []).drop state.baseSeq ∧
    state.offset ≤ state.maxOffset ∧ state.visible.length = min 2 state.size ∧
    Step.mayFollow (.setFollowTail true) = true ∧
    ((state.step (.setFollowTail true)).isAtBottom = true) ∧
    state.followTail = false ∧ (state.step (.append [message "l"])).offset = state.offset := by
  intro message config steps state
  have hw : create config = .ok (new config) := create_eq_ok_iff.mpr ⟨rfl, rfl⟩
  obtain ⟨-, -, hlog, -, -, -, -, hoffset, -, hvisible, hbottom, hstays⟩ :=
    view_of_history hw steps
  exact ⟨hw, hlog, hoffset, hvisible, rfl, hbottom (.setFollowTail true) rfl rfl, rfl,
    hstays (.append [message "l"]) rfl rfl⟩

end PacedFeed.Window
