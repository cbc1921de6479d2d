import PacedFeed.Proofs.Session.Lifecycle

-- Which starts and stops of a session take effect, and when it is let go.

namespace PacedFeed

namespace Coordinator

section Lifecycle

variable (coordinator : Coordinator) (now : Instant)

theorem lifecycle_start : coordinator.start.2.lifecycle = .running := by
  have hstart := congrArg Status.lifecycle coordinator.status_start
  by_cases hr : coordinator.lifecycle = .running
  · rw [if_pos hr] at hstart
    exact hstart.trans hr
  · rw [if_neg hr] at hstart
    exact hstart

theorem start_of_running (h : coordinator.lifecycle = .running) :
    coordinator.start = (false, coordinator) := by
  rw [start, request?_eq, (Lifecycle.transition_start_eq_none_iff _).mpr h, Option.map_none]

theorem lifecycle_runFrame : (coordinator.runFrame now).2.lifecycle = coordinator.lifecycle := by
  by_cases hr : coordinator.lifecycle = .running
  · exact congrArg Status.lifecycle (coordinator.status_runFrame now hr)
  · rw [coordinator.runFrame_of_not_running now hr]

end Lifecycle

end Coordinator

namespace Pipeline

theorem lifecycle_step (state : Pipeline) {step : Step} (hstart : step ≠ .start)
    (hstop : step ≠ .stop) :
    (state.step step).coordinator.lifecycle = state.coordinator.lifecycle := by
  cases step with
  | ingest producer message =>
      exact congrArg Status.lifecycle (state.coordinator.status_ingest message)
  | ingestAll producer messages =>
      exact congrArg Status.lifecycle (status_ingestAll state.coordinator messages)
  | start => exact absurd rfl hstart
  | stop => exact absurd rfl hstop
  | tick => exact state.coordinator.lifecycle_runFrame state.now
  | flush => exact state.coordinator.lifecycle_flush state.now
  | advance | scrollTo | scrollToBottom | setFollowTail => rfl

theorem lifecycle_run (state : Pipeline) {steps : List Step} (hstart : .start ∉ steps)
    (hstop : .stop ∉ steps) :
    (steps.foldl step state).coordinator.lifecycle = state.coordinator.lifecycle := by
  induction steps generalizing state with
  | nil => rfl
  | cons step steps ih =>
      rw [List.mem_cons, not_or] at hstart hstop
      rw [List.foldl_cons, ih _ hstart.2 hstop.2]
      exact state.lifecycle_step (Ne.symm hstart.1) (Ne.symm hstop.1)

end Pipeline

-- Who was asked to drive the frames when a coordinator was started.
inductive Starter where
  | hand
  | cadence
  | timers
  deriving DecidableEq

def Starter.step : Starter → Session.Step
  | .hand => .start
  | .cadence => .startOnCadence
  | .timers => .startOnTimer

namespace Session

-- The starts that were not ignored.
def started (session : Session) : Step → List Starter
  | .start => if session.start.1 = some true then [.hand] else []
  | .startOnCadence => if session.startOnCadence.1 = some true then [.cadence] else []
  | .startOnTimer => if session.startOnTimer.1 = some true then [.timers] else []
  | _ => []

def starts (session : Session) (steps : List Step) : List Starter :=
  trace step started session steps

def isRunning (session : Session) : Bool :=
  session.released = false ∧ session.coordinator.lifecycle = .running

section Acts

variable (session : Session) {α : Type} (f : Coordinator → Instant → α × Coordinator)

theorem act_of_released (h : session.released = true) : session.act f = (none, session) := by
  rw [act, coordinator?, if_pos h]

theorem act_of_held (h : session.released = false) :
    session.act f = (some (f session.coordinator session.now).1,
      { session with coordinator := (f session.coordinator session.now).2 }) := by
  rw [act, coordinator?, if_neg (Bool.eq_false_iff.mp h)]

end Acts

section Answers

variable (session : Session)

theorem isRunning_iff :
    session.isRunning = true ↔
      session.released = false ∧ session.coordinator.lifecycle = .running :=
  decide_eq_true_iff

theorem isRunning_eq_false (h : session.coordinator.lifecycle ≠ .running) :
    session.isRunning = false :=
  decide_eq_false fun hr => h hr.2

theorem start_of_running (h : session.isRunning = true) :
    session.start = (some false, session) := by
  obtain ⟨hr, hl⟩ := session.isRunning_iff.mp h
  rw [start, act_of_held _ _ hr, Coordinator.start_of_running _ hl]

theorem start_of_resting (hr : session.released = false)
    (hl : session.coordinator.lifecycle ≠ .running) :
    session.start = (some true, { session with coordinator := session.coordinator.start.2 }) := by
  have hanswer : session.coordinator.start.1 = true := by
    rw [Coordinator.start_fst]
    cases hc : session.coordinator.lifecycle with
    | running => exact absurd hc hl
    | idle | stopped => rfl
  rw [start, act_of_held _ _ hr, hanswer]

-- A start is ignored or it finds the coordinator at rest, whoever is to drive the frames.
theorem start_cases :
    (session.start.2 = session ∧ session.start.1 ≠ some true ∧
      session.startOnCadence = session.start ∧ session.startOnTimer = session.start) ∨
    (session.released = false ∧ session.coordinator.lifecycle ≠ .running ∧
      session.start =
        (some true, { session with coordinator := session.coordinator.start.2 })) := by
  have hignored : ∀ {answer}, session.start = (answer, session) → answer ≠ some true →
      session.startOnCadence = session.start ∧ session.startOnTimer = session.start := by
    intro answer hs ha
    constructor
    · rw [startOnCadence, hs]
      split
      · rename_i heq
        exact absurd (Prod.mk.inj heq).1 ha
      · rfl
    · rw [startOnTimer, hs]
      split
      · rename_i heq
        exact absurd (Prod.mk.inj heq).1 ha
      · rfl
  by_cases hr : session.released = true
  · have hs : session.start = (none, session) := session.act_of_released _ hr
    exact .inl ⟨by rw [hs], by simp [hs], hignored hs (by simp)⟩
  · rw [Bool.not_eq_true] at hr
    by_cases hl : session.coordinator.lifecycle = .running
    · have hs := session.start_of_running (session.isRunning_iff.mpr ⟨hr, hl⟩)
      exact .inl ⟨by rw [hs], by simp [hs], hignored hs (by simp)⟩
    · exact .inr ⟨hr, hl, session.start_of_resting hr hl⟩

theorem stop_of_running (h : session.isRunning = true) :
    session.stop = (some true,
      { session with coordinator := (session.coordinator.stop session.now).2 }.unpace) := by
  obtain ⟨hr, hl⟩ := session.isRunning_iff.mp h
  have hanswer : (session.coordinator.stop session.now).1 = true := by
    rw [Coordinator.stop_fst, hl]
    rfl
  rw [stop, act_of_held _ _ hr, hanswer]

theorem stop_of_resting (h : session.isRunning = false) : session.stop.2 = session := by
  cases hr : session.released with
  | true => rw [stop, act_of_released _ _ hr]
  | false =>
      have hl : session.coordinator.lifecycle ≠ .running := fun hl =>
        Bool.eq_false_iff.mp h (session.isRunning_iff.mpr ⟨hr, hl⟩)
      rw [stop, act_of_held _ _ hr, Coordinator.stop_of_not_running _ _ hl]

theorem pace_unpace : session.unpace.pace = none := by
  unfold unpace
  split
  · rename_i hp
    exact hp
  · rfl
  · rfl

theorem lifecycle_stop (hl : session.coordinator.lifecycle = .running)
    (hreleased : session.released = false) :
    session.stop.2.coordinator.lifecycle = .stopped := by
  have hr := session.isRunning_iff.mpr ⟨hreleased, hl⟩
  have hunpace := congrArg Pipeline.coordinator
    { session with coordinator := (session.coordinator.stop session.now).2 }.pipeline_unpace
  rw [session.stop_of_running hr]
  exact (congrArg Coordinator.lifecycle hunpace).trans
    (session.coordinator.lifecycle_stop session.now hl)

theorem isRunning_stop : session.stop.2.isRunning = false := by
  by_cases hr : session.isRunning = true
  · obtain ⟨hreleased, hl⟩ := session.isRunning_iff.mp hr
    refine isRunning_eq_false _ fun hrunning => ?_
    exact nomatch (session.lifecycle_stop hl hreleased).symm.trans hrunning
  · rw [session.stop_of_resting (Bool.eq_false_iff.mpr hr)]
    exact Bool.eq_false_iff.mpr hr

theorem lifecycle_of_calls (step : Step) (hstart : .start ∉ session.calls step)
    (hstop : .stop ∉ session.calls step) :
    (session.step step).coordinator.lifecycle = session.coordinator.lifecycle := by
  have hstep := congrArg Pipeline.coordinator (session.pipeline_step step)
  have hlifecycle := session.pipeline.lifecycle_run hstart hstop
  exact (congrArg Coordinator.lifecycle hstep).trans hlifecycle

end Answers

theorem isRunning_congr {session other : Session} (hr : other.released = session.released)
    (hl : other.coordinator.lifecycle = session.coordinator.lifecycle) :
    other.isRunning = session.isRunning := by
  rw [isRunning, isRunning, hr, hl]

section Released

variable (session : Session)

end Released

end Session

end PacedFeed
