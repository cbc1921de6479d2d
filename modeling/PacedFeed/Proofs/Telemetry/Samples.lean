import PacedFeed.Proofs.Pipeline.Periods

-- What a monitor keeps of all that it was given.

namespace PacedFeed

theorem Fifo.size_of_newest {α : Type} {queue : Fifo α} {items : List α} {limit : Nat}
    (h : queue.toList = items.drop (items.length - limit)) :
    queue.size = min items.length limit := by
  rw [← queue.length_toList, h, List.length_drop]
  omega

namespace FrameMonitor

inductive Step where
  | tick (now : Instant)
  | frame (frame : Duration)
  | latency (latency : Duration)
  | pause
  | reset
  deriving DecidableEq

def step (monitor : FrameMonitor) : Step → FrameMonitor
  | .tick now => (monitor.recordTick now).2
  | .frame frame => monitor.recordFrame frame
  | .latency latency => monitor.recordLatency latency
  | .pause => monitor.pause
  | .reset => monitor.reset

def run (monitor : FrameMonitor) (steps : List Step) : FrameMonitor :=
  steps.foldl step monitor

theorem run_concat (monitor : FrameMonitor) (steps : List Step) (last : Step) :
    monitor.run (steps ++ [last]) = (monitor.run steps).step last := by
  rw [run, List.foldl_append]
  rfl

-- The frame that a tick records, if it records one.
def tickFrame (monitor : FrameMonitor) : Step → List Duration
  | .tick now => (monitor.recordTick now).1.toList
  | .frame _ | .latency _ | .pause | .reset => []

def frameOf (monitor : FrameMonitor) : Step → List Duration
  | .tick now => monitor.tickFrame (.tick now)
  | .frame frame => [frame]
  | .latency _ | .pause | .reset => []

def latencyOf : Step → List Duration
  | .latency latency => [latency]
  | .tick _ | .frame _ | .pause | .reset => []

-- All that was recorded since the last reset, oldest first.
structure Recorded where
  frames : List Duration
  latencies : List Duration

def follow (monitor : FrameMonitor) (step : Step) (recorded : Recorded) : Recorded :=
  if step = .reset then ⟨[], []⟩
  else ⟨recorded.frames ++ monitor.frameOf step, recorded.latencies ++ latencyOf step⟩

def recorded (monitor : FrameMonitor) (steps : List Step) : Recorded :=
  track step follow monitor ⟨[], []⟩ steps

theorem recorded_concat (monitor : FrameMonitor) (steps : List Step) (last : Step) :
    monitor.recorded (steps ++ [last]) =
      (monitor.run steps).follow last (monitor.recorded steps) :=
  track_concat _ _ _ _ _ _

-- A monitor with the settings of `fresh` holds the newest of what was recorded, and has counted
-- the dropped frames of all of it.
structure Holds (fresh monitor : FrameMonitor) (recorded : Recorded) : Prop where
  targetFrame_eq : monitor.targetFrame = fresh.targetFrame
  frameWindow_eq : monitor.frameWindow = fresh.frameWindow
  latencyWindow_eq : monitor.latencyWindow = fresh.latencyWindow
  frames_eq : monitor.frames.toList =
    recorded.frames.drop (recorded.frames.length - fresh.frameWindow)
  latencies_eq : monitor.latencies.toList =
    recorded.latencies.drop (recorded.latencies.length - fresh.latencyWindow)
  droppedTotal_eq : monitor.droppedTotal = recorded.frames.countP fresh.isDropped

section Holds

variable {fresh monitor : FrameMonitor} {recorded : Recorded}

theorem isDropped_congr (h : monitor.targetFrame = fresh.targetFrame) :
    monitor.isDropped = fresh.isDropped := by
  funext frame
  rw [isDropped, isDropped, h]

-- From which instant the next frame is timed has no part in it.
theorem Holds.mark (h : Holds fresh monitor recorded) (lastTick : Option Instant) :
    Holds fresh { monitor with lastTick := lastTick } recorded :=
  ⟨h.targetFrame_eq, h.frameWindow_eq, h.latencyWindow_eq, h.frames_eq, h.latencies_eq,
    h.droppedTotal_eq⟩

theorem Holds.recordFrame (h : Holds fresh monitor recorded) (frame : Duration) :
    Holds fresh (monitor.recordFrame frame)
      { recorded with frames := recorded.frames ++ [frame] } := by
  refine { h with frames_eq := ?_, droppedTotal_eq := ?_ }
  · rw [FrameMonitor.recordFrame, h.frameWindow_eq]
    exact Fifo.toList_keepNewest_push h.frames_eq frame
  · rw [FrameMonitor.recordFrame, isDropped_congr h.targetFrame_eq, h.droppedTotal_eq,
      List.countP_append, List.countP_singleton]

theorem Holds.recordLatency (h : Holds fresh monitor recorded) (latency : Duration) :
    Holds fresh (monitor.recordLatency latency)
      { recorded with latencies := recorded.latencies ++ [latency] } := by
  refine { h with latencies_eq := ?_ }
  rw [FrameMonitor.recordLatency, h.latencyWindow_eq]
  exact Fifo.toList_keepNewest_push h.latencies_eq latency

theorem Holds.reset (h : Holds fresh monitor recorded) : Holds fresh monitor.reset ⟨[], []⟩ where
  targetFrame_eq := h.targetFrame_eq
  frameWindow_eq := h.frameWindow_eq
  latencyWindow_eq := h.latencyWindow_eq
  frames_eq := List.drop_nil.symm
  latencies_eq := List.drop_nil.symm
  droppedTotal_eq := rfl

theorem Holds.recordTick (h : Holds fresh monitor recorded) (now : Instant) :
    Holds fresh (monitor.recordTick now).2
      { recorded with frames := recorded.frames ++ (monitor.recordTick now).1.toList } := by
  unfold FrameMonitor.recordTick
  cases monitor.lastTick with
  | none =>
      rw [Option.toList_none, List.append_nil]
      exact h.mark _
  | some last => exact (h.mark _).recordFrame _

theorem Holds.step (h : Holds fresh monitor recorded) (step : Step) :
    Holds fresh (monitor.step step) (monitor.follow step recorded) := by
  cases step with
  | tick now =>
      rw [follow, if_neg Step.noConfusion, latencyOf, List.append_nil]
      exact h.recordTick now
  | frame frame =>
      rw [follow, if_neg Step.noConfusion, latencyOf, List.append_nil]
      exact h.recordFrame frame
  | latency sample =>
      rw [follow, if_neg Step.noConfusion, frameOf, List.append_nil]
      exact h.recordLatency sample
  | pause =>
      rw [follow, if_neg Step.noConfusion, frameOf, latencyOf, List.append_nil,
        List.append_nil]
      exact h.mark none
  | reset => exact h.reset

theorem holds_run (target : Duration) (frameWindow latencyWindow : Nat) (steps : List Step) :
    let fresh := withWindows target frameWindow latencyWindow
    Holds fresh (fresh.run steps) (fresh.recorded steps) := by
  induction steps using List.reverseRecOn with
  | nil => exact ⟨rfl, rfl, rfl, List.drop_nil.symm, List.drop_nil.symm, rfl⟩
  | append_singleton steps last ih =>
      dsimp only
      rw [run_concat, recorded_concat]
      exact ih.step last

end Holds

section Ticks

def Step.instant? : Step → Option Instant
  | .tick now => some now
  | .frame _ | .latency _ | .pause | .reset => none

-- The instants of the ticks.
def instants (steps : List Step) : List Instant :=
  steps.filterMap Step.instant?

theorem instants_cons (step : Step) (steps : List Step) :
    instants (step :: steps) = step.instant?.toList ++ instants steps := by
  cases step <;> rfl

-- Steps after which time is not counted on from the tick before them.
def Step.breaks : Step → Bool
  | .pause | .reset => true
  | .tick _ | .frame _ | .latency _ => false

theorem Step.breaks_eq_false_iff {step : Step} :
    step.breaks = false ↔ step ≠ .pause ∧ step ≠ .reset := by
  cases step <;> simp [breaks]

-- The frames that the ticks record.
def measured (monitor : FrameMonitor) (steps : List Step) : List Duration :=
  trace step tickFrame monitor steps

theorem tickFrame_eq (monitor : FrameMonitor) (step : Step) :
    monitor.tickFrame step =
      (step.instant?.bind fun now => monitor.lastTick.map (Instant.since now)).toList := by
  cases step with
  | tick now => exact congrArg Option.toList (Pipeline.recordTick_fst monitor now)
  | _ => rfl

variable {monitor : FrameMonitor} {step : Step} {steps : List Step}

theorem lastTick_recordTick (monitor : FrameMonitor) (now : Instant) :
    (monitor.recordTick now).2.lastTick = some now := by
  unfold recordTick
  cases monitor.lastTick <;> rfl

theorem lastTick_step (monitor : FrameMonitor) (step : Step) :
    (monitor.step step).lastTick =
      if step.breaks then none else step.instant?.or monitor.lastTick := by
  cases step with
  | tick now => exact monitor.lastTick_recordTick now
  | _ => rfl

-- Without a tick after it a pause lasts.
theorem lastTick_run_eq_none (h : monitor.lastTick = none) (hs : instants steps = []) :
    (monitor.run steps).lastTick = none := by
  induction steps generalizing monitor with
  | nil => exact h
  | cons step steps ih =>
      rw [instants_cons] at hs
      obtain ⟨hstep, hsteps⟩ := List.append_eq_nil_iff.mp hs
      refine ih ?_ hsteps
      rw [lastTick_step, Option.toList_eq_nil_iff.mp hstep, h]
      exact ite_self _

theorem measured_eq_gaps (h : ∀ step ∈ steps, step.breaks = false) :
    monitor.measured steps = gaps (monitor.lastTick.toList ++ instants steps) := by
  induction steps generalizing monitor with
  | nil =>
      cases hl : monitor.lastTick <;> rfl
  | cons step steps ih =>
      have hlast := monitor.lastTick_step step
      rw [h step List.mem_cons_self, if_neg Bool.false_ne_true] at hlast
      have hrest : (monitor.step step).measured steps = _ := ih fun later hm =>
        h later (List.mem_cons_of_mem _ hm)
      rw [hlast] at hrest
      rw [measured, trace, ← measured, hrest, instants_cons, tickFrame_eq]
      cases step.instant? with
      | none => rfl
      | some now => cases monitor.lastTick <;> rfl

theorem measured_step_tick (monitor : FrameMonitor) (first : Instant)
    (h : ∀ step ∈ steps, step.breaks = false) :
    (monitor.step (.tick first)).measured steps = gaps (first :: instants steps) := by
  rw [measured_eq_gaps h, lastTick_step]
  rfl

-- The times between instants in order add up to the time from the first to the last.
theorem sum_gaps {first : Instant} {later : List Instant}
    (h : (first :: later).Pairwise (· ≤ ·)) :
    (gaps (first :: later)).sum = (later.getLastD first).since first := by
  induction later generalizing first with
  | nil => exact (Instant.since_self first).symm
  | cons second later ih =>
      obtain ⟨hfirst, hlater⟩ := List.pairwise_cons.mp h
      have hsecond : first ≤ second := hfirst second List.mem_cons_self
      have hlast : second ≤ later.getLastD second := by
        rcases List.mem_cons.mp (List.getLastD_mem_cons (l := later) (a := second)) with he | hm
        · exact Int.le_of_eq he.symm
        · exact (List.pairwise_cons.mp hlater).1 _ hm
      rw [gaps, List.sum_cons, ih hlater, List.getLastD_cons, Nat.add_comm]
      exact Instant.since_add hsecond hlast

end Ticks

end FrameMonitor

open FrameMonitor in
-- For windows of all sizes: a monitor holds the newest of what was recorded since the last reset,
-- and counts the dropped frames of all of it and of what it holds. The first tick after a pause or
-- a reset records nothing. The ticks that follow a tick record all the time that passes from it to
-- the last of them.
theorem newest_samples_since_reset (target : Duration) (frameWindow latencyWindow : Nat)
    (steps : List FrameMonitor.Step) :
    let fresh := withWindows target frameWindow latencyWindow
    let monitor := fresh.run steps
    let recorded := fresh.recorded steps
    let stats := monitor.stats
    (monitor.frames.toList =
        recorded.frames.drop (recorded.frames.length - max frameWindow 1) ∧
      stats.samples = min recorded.frames.length (max frameWindow 1)) ∧
    (monitor.latencies.toList =
        recorded.latencies.drop (recorded.latencies.length - max latencyWindow 1) ∧
      monitor.latencies.size = min recorded.latencies.length (max latencyWindow 1)) ∧
    (stats.droppedTotal = recorded.frames.countP fresh.isDropped ∧
      stats.droppedInWindow = monitor.frames.toList.countP fresh.isDropped ∧
      stats.droppedInWindow ≤ stats.droppedTotal ∧
      stats.droppedTotal ≤ recorded.frames.length) ∧
    (∀ stop idle now, stop = .pause ∨ stop = .reset → instants idle = [] →
      let paused := fresh.run (steps ++ stop :: idle)
      paused.recordTick now = (none, { paused with lastTick := some now })) ∧
    ∀ first later, (∀ step ∈ later, step ≠ .pause ∧ step ≠ .reset) →
      (first :: instants later).Pairwise (· ≤ ·) →
      let frames := (monitor.step (.tick first)).measured later
      monitor.measured (.tick first :: later) = (monitor.recordTick first).1.toList ++ frames ∧
        frames.sum = ((instants later).getLastD first).since first := by
  intro fresh monitor recorded stats
  have hholds : Holds fresh monitor recorded := holds_run target frameWindow latencyWindow steps
  have hwindow : stats.droppedInWindow = monitor.frames.toList.countP fresh.isDropped :=
    congrArg (List.countP · _) (isDropped_congr hholds.targetFrame_eq)
  refine ⟨⟨hholds.frames_eq, Fifo.size_of_newest hholds.frames_eq⟩,
    ⟨hholds.latencies_eq, Fifo.size_of_newest hholds.latencies_eq⟩,
    ⟨hholds.droppedTotal_eq, hwindow, ?_, ?_⟩, fun stop idle now hstop hidle => ?_,
    fun first later hlater hsorted => ?_⟩
  · rw [hwindow, hholds.frames_eq]
    exact Nat.le_trans (List.drop_sublist _ _).countP_le (Nat.le_of_eq hholds.droppedTotal_eq.symm)
  · exact Nat.le_trans (Nat.le_of_eq hholds.droppedTotal_eq) List.countP_le_length
  · have hbreak : (monitor.step stop).lastTick = none := by
      rcases hstop with rfl | rfl <;> rfl
    have hpaused : (fresh.run (steps ++ stop :: idle)).lastTick = none := by
      rw [FrameMonitor.run, List.foldl_append, List.foldl_cons]
      exact lastTick_run_eq_none hbreak hidle
    intro paused
    rw [recordTick, hpaused]
  · have hbreaks : ∀ step ∈ later, step.breaks = false := fun step hm =>
      Step.breaks_eq_false_iff.mpr (hlater step hm)
    intro frames
    have hframes : frames = gaps (first :: instants later) :=
      measured_step_tick monitor first hbreaks
    exact ⟨rfl, hframes ▸ sum_gaps hsorted⟩

-- Two windows that overflow, a frame that was measured elsewhere, and a tick after a pause.
theorem newest_samples_since_reset_paused :
    let steps : List FrameMonitor.Step := [.tick 0, .tick 30, .reset, .tick 100, .tick 116,
      .frame 90, .latency 5, .latency 7, .tick 150]
    let later : List FrameMonitor.Step := [.frame 40, .tick 230, .latency 3, .tick 246]
    let fresh := FrameMonitor.withWindows 16 2 0
    let monitor := fresh.run steps
    monitor.frames.toList = [90, 34] ∧ monitor.latencies.toList = [7] ∧
    monitor.stats.droppedTotal = 2 ∧
    ((fresh.run (steps ++ [.pause, .frame 9])).recordTick 200).1 = none ∧
    ((monitor.step (.tick 200)).measured later).sum = 46 := by
  intro steps later fresh monitor
  obtain ⟨⟨hframes, -⟩, ⟨hlatencies, -⟩, ⟨htotal, -, -, -⟩, hpaused, htimed⟩ :=
    newest_samples_since_reset 16 2 0 steps
  have hidle := hpaused .pause [.frame 9] 200 (.inl rfl) rfl
  refine ⟨hframes.trans ?_, hlatencies.trans ?_, htotal.trans ?_, congrArg Prod.fst hidle,
    (htimed 200 later ?_ ?_).2.trans ?_⟩
  all_goals decide +kernel

end PacedFeed
