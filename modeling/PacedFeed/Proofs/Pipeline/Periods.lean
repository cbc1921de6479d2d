import PacedFeed.Proofs.Pipeline.Log

-- The times that a coordinator runs, and what is measured in each of them.

namespace PacedFeed

-- Transitions one after the other, each from where the one before led.
def Lifecycle.Trail : Lifecycle → List (Lifecycle × Lifecycle) → Lifecycle → Prop
  | first, [], last => first = last
  | first, (source, target) :: rest, last => first = source ∧ Trail target rest last

theorem Lifecycle.Trail.append {first middle last : Lifecycle}
    {before after : List (Lifecycle × Lifecycle)} (hb : Trail first before middle)
    (ha : Trail middle after last) : Trail first (before ++ after) last := by
  induction before generalizing first with
  | nil =>
      obtain rfl := hb
      exact ha
  | cons transition before ih =>
      obtain ⟨source, target⟩ := transition
      exact ⟨hb.1, ih hb.2⟩

theorem Lifecycle.Trail.split {first last : Lifecycle} {before after : List (Lifecycle × Lifecycle)}
    (h : Trail first (before ++ after) last) :
    ∃ middle, Trail first before middle ∧ Trail middle after last := by
  induction before generalizing first with
  | nil => exact ⟨first, rfl, h⟩
  | cons transition before ih =>
      obtain ⟨source, target⟩ := transition
      obtain ⟨middle, hb, ha⟩ := ih h.2
      exact ⟨middle, ⟨h.1, hb⟩, ha⟩

def transitions (events : List Event) : List (Lifecycle × Lifecycle) :=
  events.filterMap Event.transition?

-- What is kept of a trail is the end of it.
theorem exists_trail_newest {first last : Lifecycle} {events : List Event}
    (h : Lifecycle.Trail first (transitions events) last) :
    ∃ source, Lifecycle.Trail source (transitions (Recorder.newest events)) last := by
  obtain ⟨dropped, hevents⟩ := Recorder.newest_suffix events
  generalize Recorder.newest events = kept at hevents ⊢
  rw [← hevents, transitions, List.filterMap_append] at h
  obtain ⟨source, -, hkept⟩ := h.split
  exact ⟨source, hkept⟩

-- How often the events tell of a start.
def starts (events : List Event) : Nat :=
  (transitions events).countP fun transition => transition.2 = .running

theorem starts_append (before after : List Event) :
    starts (before ++ after) = starts before + starts after := by
  rw [starts, transitions, List.filterMap_append, List.countP_append]
  rfl

-- The times between instants that follow each other.
def gaps : List Instant → List Duration
  | [] | [_] => []
  | first :: second :: rest => second.since first :: gaps (second :: rest)

theorem length_gaps (instants : List Instant) : (gaps instants).length = instants.length - 1 := by
  induction instants using gaps.induct with
  | case1 => rfl
  | case2 first => rfl
  | case3 first second rest ih => simp [gaps, ih]

theorem gaps_concat (instants : List Instant) (now : Instant) :
    gaps (instants ++ [now]) =
      gaps instants ++ (instants.getLast?.map (Instant.since now)).toList := by
  induction instants using gaps.induct with
  | case1 => rfl
  | case2 first => rfl
  | case3 first second rest ih =>
      rw [List.cons_append] at ih
      rw [List.cons_append, List.cons_append, gaps, ih, gaps, List.getLast?_cons_cons]
      rfl

-- The instants of frames, apart for each time that the coordinator ran. The last of these may not
-- be over.
structure Periods where
  past : List (List Instant)
  current : List Instant

namespace Periods

def none : Periods := ⟨[], []⟩

def all (periods : Periods) : List (List Instant) :=
  periods.past ++ [periods.current]

-- A frame belongs to the period that is going on.
def extend (periods : Periods) (now : Instant) : Periods :=
  { periods with current := periods.current ++ [now] }

def close (periods : Periods) : Periods :=
  ⟨periods.past ++ [periods.current], []⟩

theorem flatten_extend (periods : Periods) (now : Instant) :
    (periods.extend now).all.flatten = periods.all.flatten ++ [now] := by
  simp [all, extend]

theorem flatten_close (periods : Periods) :
    periods.close.all.flatten = periods.all.flatten := by
  simp [all, close]

theorem flatMap_gaps_extend (periods : Periods) (now : Instant) :
    (periods.extend now).all.flatMap gaps =
      periods.all.flatMap gaps ++
        (periods.current.getLast?.map (Instant.since now)).toList := by
  simp [all, extend, gaps_concat]

theorem flatMap_gaps_close (periods : Periods) :
    periods.close.all.flatMap gaps = periods.all.flatMap gaps := by
  simp [all, close, gaps]

end Periods

namespace Pipeline

-- Stopping a coordinator that runs ends a period.
def closes (state : Pipeline) : Step → Bool
  | .stop => state.isRunning
  | _ => false

def follow (state : Pipeline) (step : Step) (periods : Periods) : Periods :=
  if state.isFrame step then periods.extend state.now
  else if state.closes step then periods.close
  else periods

def periods (state : Pipeline) (steps : List Step) : Periods :=
  track step follow state .none steps

-- The frame time that a step measures, if it measures any.
def measured (state : Pipeline) (step : Step) : List Duration :=
  if state.isFrame step then (state.coordinator.monitor.recordTick state.now).1.toList else []

def samples (state : Pipeline) (steps : List Step) : List Duration :=
  trace step measured state steps

-- What a step can do to the lifecycle and to the instant from which the next frame is timed: it is
-- a frame, it stops or starts the coordinator, or it does nothing to them.
inductive Phase (state : Pipeline) (step : Step) : Prop where
  | frame (isFrame : state.isFrame step = true)
      (lifecycle : (state.step step).coordinator.lifecycle = state.coordinator.lifecycle)
      (lastTick : (state.step step).coordinator.monitor.lastTick = some state.now)
      (transitions : transitions (state.reports step) = [])
  | close (isFrame : state.isFrame step = false) (closes : state.closes step = true)
      (lifecycle : (state.step step).coordinator.lifecycle = .stopped)
      (lastTick : (state.step step).coordinator.monitor.lastTick = none)
      (transitions : transitions (state.reports step) = [(state.coordinator.lifecycle, .stopped)])
  | begin (isFrame : state.isFrame step = false) (closes : state.closes step = false)
      (idle : state.coordinator.lifecycle ≠ .running)
      (lifecycle : (state.step step).coordinator.lifecycle = .running)
      (lastTick : (state.step step).coordinator.monitor.lastTick = none)
      (transitions : transitions (state.reports step) = [(state.coordinator.lifecycle, .running)])
  | keep (isFrame : state.isFrame step = false) (closes : state.closes step = false)
      (lifecycle : (state.step step).coordinator.lifecycle = state.coordinator.lifecycle)
      (lastTick : (state.step step).coordinator.monitor.lastTick =
        state.coordinator.monitor.lastTick)
      (transitions : transitions (state.reports step) = [])

section Step

variable {state : Pipeline} {step : Step}

theorem running_of_closes (h : state.closes step = true) :
    state.coordinator.lifecycle = .running := by
  cases step with
  | stop => exact of_decide_eq_true h
  | _ => cases h

theorem phase_of_isFrame (h : state.isFrame step = true) : Phase state step := by
  have hframe := status_of_isFrame h
  refine .frame h (congrArg Status.lifecycle hframe) (congrArg Status.lastTick hframe) ?_
  rw [(step_of_isFrame h).2]
  exact Coordinator.transitions_observeReports _ _ _

theorem phase_start (state : Pipeline) : Phase state .start := by
  have hstart := state.coordinator.status_start
  by_cases hr : state.coordinator.lifecycle = .running
  · rw [if_pos hr] at hstart
    refine .keep rfl rfl (congrArg Status.lifecycle hstart) (congrArg Status.lastTick hstart) ?_
    rw [reports, Coordinator.requestReports, (Lifecycle.transition_start_eq_none_iff _).mpr hr]
    rfl
  · rw [if_neg hr] at hstart
    refine .begin rfl rfl hr (congrArg Status.lifecycle hstart) (congrArg Status.lastTick hstart) ?_
    rw [reports, Coordinator.requestReports]
    cases hl : state.coordinator.lifecycle with
    | running => exact absurd hl hr
    | idle | stopped => rfl

theorem phase_stop (state : Pipeline) : Phase state .stop := by
  have hstop := state.coordinator.status_stop state.now
  by_cases hr : state.coordinator.lifecycle = .running
  · rw [if_pos hr] at hstop
    refine .close rfl (decide_eq_true hr) (congrArg Status.lifecycle hstop)
      (congrArg Status.lastTick hstop) ?_
    rw [reports, Coordinator.stopReports, Coordinator.requestReports, hr]
    split <;> rfl
  · rw [if_neg hr] at hstop
    refine .keep rfl (decide_eq_false hr) (congrArg Status.lifecycle hstop)
      (congrArg Status.lastTick hstop) ?_
    rw [reports, Coordinator.stopReports, Coordinator.requestReports,
      (Lifecycle.transition_stop_eq_none_iff _).mpr hr, if_neg fun h => hr h.1]
    rfl

theorem phase_step (state : Pipeline) (step : Step) : Phase state step := by
  cases step with
  | ingest producer message =>
      have hsame := state.coordinator.status_ingest message
      exact .keep rfl rfl (congrArg Status.lifecycle hsame) (congrArg Status.lastTick hsame) rfl
  | ingestAll producer messages =>
      have hsame := status_ingestAll state.coordinator messages
      exact .keep rfl rfl (congrArg Status.lifecycle hsame) (congrArg Status.lastTick hsame) rfl
  | start => exact state.phase_start
  | stop => exact state.phase_stop
  | tick =>
      by_cases hf : state.isFrame .tick = true
      · exact phase_of_isFrame hf
      · have hsame := step_tick (eq_false_of_ne_true hf)
        have hnone := reports_tick (eq_false_of_ne_true hf)
        refine .keep (eq_false_of_ne_true hf) rfl ?_ ?_ ?_
        · rw [hsame]
        · rw [hsame]
        · rw [hnone]
          rfl
  | flush =>
      have hflush := state.coordinator.status_flushFor state.now .explicit
      have hlifecycle := congrArg Status.lifecycle hflush
      have hlast := congrArg Status.lastTick hflush
      simp only [Coordinator.status] at hlifecycle hlast
      refine .keep rfl rfl ?_ ?_ rfl
      · rw [Pipeline.step, Coordinator.flush, hlifecycle]
      · rw [Pipeline.step, Coordinator.flush, hlast]
  | advance | scrollTo | scrollToBottom | setFollowTail => exact .keep rfl rfl rfl rfl rfl

-- What a step records of the lifecycle leads from the state before it to the one after it.
theorem trail_step (state : Pipeline) (step : Step) :
    Lifecycle.Trail state.coordinator.lifecycle (transitions (state.reports step))
      (state.step step).coordinator.lifecycle := by
  cases state.phase_step step with
  | frame _ hl _ ht =>
      rw [ht, hl]
      exact rfl
  | close _ _ hl _ ht =>
      rw [ht, hl]
      exact ⟨rfl, rfl⟩
  | begin _ _ _ hl _ ht =>
      rw [ht, hl]
      exact ⟨rfl, rfl⟩
  | keep _ _ hl _ ht =>
      rw [ht, hl]
      exact rfl

theorem recordTick_fst (monitor : FrameMonitor) (now : Instant) :
    (monitor.recordTick now).1 = monitor.lastTick.map (Instant.since now) := by
  unfold FrameMonitor.recordTick
  cases monitor.lastTick <;> rfl

-- The monitor goes on to hold the newest of all frame times.
theorem frames_recordTick {monitor : FrameMonitor} {past : List Duration}
    (h : monitor.frames.toList = past.drop (past.length - monitor.frameWindow)) (now : Instant) :
    (monitor.recordTick now).2.frames.toList =
      (past ++ (monitor.recordTick now).1.toList).drop
        ((past ++ (monitor.recordTick now).1.toList).length - monitor.frameWindow) := by
  unfold FrameMonitor.recordTick
  cases monitor.lastTick with
  | none =>
      rw [Option.toList_none, List.append_nil]
      exact h
  | some last => exact Fifo.toList_keepNewest_push h _

end Step

-- There is a period for each time that the coordinator was started, they hold all frames, and
-- every frame time is one between two frames of a period.
structure Tracked (state : Pipeline) (periods : Periods) (events : List PacedFeed.Event)
    (instants : List Instant) (samples : List Duration) : Prop where
  starts_eq : starts events =
    periods.past.length + if state.coordinator.lifecycle = .running then 1 else 0
  flatten_eq : periods.all.flatten = instants
  samples_eq : samples = periods.all.flatMap gaps
  lastTick_eq : state.coordinator.monitor.lastTick = periods.current.getLast?
  current_eq_nil : state.coordinator.lifecycle ≠ .running → periods.current = []

section Tracked

variable {state : Pipeline} {periods : Periods} {events : List PacedFeed.Event}
variable {instants : List Instant} {samples : List Duration}

theorem Tracked.step (h : Tracked state periods events instants samples) (step : Step) :
    Tracked (state.step step) (state.follow step periods) (events ++ state.reports step)
      (instants ++ state.frameTime step) (samples ++ state.measured step) := by
  unfold follow frameTime measured
  cases state.phase_step step with
  | frame hf hl ht hn =>
      have hr : state.coordinator.lifecycle = .running := (isFrame_iff.mp hf).2
      rw [if_pos hf, if_pos hf, if_pos hf, recordTick_fst, h.lastTick_eq]
      constructor
      · rw [starts_append, h.starts_eq, starts, hn, hl]
        rfl
      · rw [Periods.flatten_extend, h.flatten_eq]
      · rw [Periods.flatMap_gaps_extend, h.samples_eq]
      · rw [ht, Periods.extend, List.getLast?_concat]
      · intro hi
        exact absurd (hl.trans hr) hi
  | close hf hc hl ht hn =>
      have hr : state.coordinator.lifecycle = .running := running_of_closes hc
      simp only [hf, hc, Bool.false_eq_true, if_false, if_true, List.append_nil]
      constructor
      · rw [starts_append, h.starts_eq, starts, hn, hl, hr, Periods.close, List.length_append]
        rfl
      · rw [Periods.flatten_close, h.flatten_eq]
      · rw [Periods.flatMap_gaps_close, h.samples_eq]
      · rw [ht, Periods.close, List.getLast?_nil]
      · exact fun _ => rfl
  | begin hf hc hi hl ht hn =>
      simp only [hf, hc, Bool.false_eq_true, if_false, List.append_nil]
      refine { h with starts_eq := ?_, lastTick_eq := ?_, current_eq_nil := fun _ => ?_ }
      · rw [starts_append, h.starts_eq, starts, hn, hl, if_neg hi]
        rfl
      · rw [ht, h.current_eq_nil hi, List.getLast?_nil]
      · exact h.current_eq_nil hi
  | keep hf hc hl ht hn =>
      simp only [hf, hc, Bool.false_eq_true, if_false, List.append_nil]
      refine { h with starts_eq := ?_, lastTick_eq := ht.trans h.lastTick_eq, current_eq_nil := ?_ }
      · rw [starts_append, h.starts_eq, starts, hn, hl]
        rfl
      · exact fun hi => h.current_eq_nil fun hr => hi (hl.trans hr)

end Tracked

section Run

variable (state : Pipeline) (steps : List Step) (last : Step)

theorem periods_concat :
    state.periods (steps ++ [last]) = (state.run steps).follow last (state.periods steps) :=
  track_concat _ _ _ _ _ _

theorem samples_concat :
    state.samples (steps ++ [last]) = state.samples steps ++ (state.run steps).measured last :=
  trace_concat _ _ _ _ _

variable {config : PipelineConfig} {start : Instant} {coordinator : Coordinator}

theorem trail_run :
    Lifecycle.Trail state.coordinator.lifecycle (transitions (state.recorded steps))
      (state.run steps).coordinator.lifecycle := by
  induction steps using List.reverseRecOn with
  | nil => exact rfl
  | append_singleton steps last ih =>
      rw [run_concat, recorded_concat, transitions, List.filterMap_append]
      exact ih.append (trail_step _ last)

theorem tracked_run (hc : Coordinator.create config start = .ok coordinator) :
    let state := run ⟨coordinator, start⟩ steps
    Tracked state (periods ⟨coordinator, start⟩ steps) (recorded ⟨coordinator, start⟩ steps)
      (frameTimes ⟨coordinator, start⟩ steps) (samples ⟨coordinator, start⟩ steps) := by
  induction steps using List.reverseRecOn with
  | nil =>
      obtain ⟨-, rfl⟩ := Coordinator.create_eq_ok_iff.mp hc
      exact ⟨rfl, rfl, rfl, rfl, fun _ => rfl⟩
  | append_singleton steps last ih =>
      dsimp only
      rw [run_concat, periods_concat, recorded_concat, frameTimes_concat, samples_concat]
      exact ih.step last

theorem frames_run (hc : Coordinator.create config start = .ok coordinator) :
    let monitor := (run ⟨coordinator, start⟩ steps).coordinator.monitor
    let samples := samples ⟨coordinator, start⟩ steps
    monitor.frameWindow = FrameMonitor.defaultFrameWindow ∧
      monitor.frames.toList = samples.drop (samples.length - monitor.frameWindow) := by
  induction steps using List.reverseRecOn with
  | nil =>
      obtain ⟨-, rfl⟩ := Coordinator.create_eq_ok_iff.mp hc
      exact ⟨rfl, rfl⟩
  | append_singleton steps last ih =>
      dsimp only at ih ⊢
      rw [run_concat, samples_concat, measured]
      generalize run ⟨coordinator, start⟩ steps = state at *
      generalize samples ⟨coordinator, start⟩ steps = past at *
      by_cases hf : state.isFrame last = true
      · have hframe := status_of_isFrame hf
        have hwindow : (state.step last).coordinator.monitor.frameWindow =
            state.coordinator.monitor.frameWindow :=
          congrArg (fun status : Status => status.frameWindow) hframe
        have hframes : (state.step last).coordinator.monitor.frames = _ :=
          congrArg (fun status : Status => status.frames) hframe
        rw [if_pos hf, hwindow, hframes]
        exact ⟨ih.1, frames_recordTick ih.2 _⟩
      · have hsame := watch_step (eq_false_of_ne_true hf)
        have hwindow : (state.step last).coordinator.monitor.frameWindow =
            state.coordinator.monitor.frameWindow := congrArg Watch.frameWindow hsame
        have hframes : (state.step last).coordinator.monitor.frames =
            state.coordinator.monitor.frames := congrArg Watch.frames hsame
        rw [if_neg hf, hwindow, hframes, List.append_nil]
        exact ih

-- Time does not run backwards.
theorem frameTimes_sorted :
    (state.frameTimes steps).Pairwise (· ≤ ·) ∧
      ∀ instant ∈ state.frameTimes steps, instant ≤ (state.run steps).now := by
  induction steps using List.reverseRecOn with
  | nil => exact ⟨.nil, by simp [frameTimes, trace]⟩
  | append_singleton steps last ih =>
      rw [run_concat, frameTimes_concat, frameTime]
      have hlater := (state.run steps).now_le_step last
      split
      · refine ⟨List.pairwise_append.mpr ⟨ih.1, List.pairwise_singleton _ _, ?_⟩, ?_⟩
        · intro instant hi other ho
          rw [List.mem_singleton.mp ho]
          exact ih.2 instant hi
        · intro instant hi
          rcases List.mem_append.mp hi with hi | hi
          · exact Int.le_trans (ih.2 instant hi) hlater
          · rw [List.mem_singleton.mp hi]
            exact hlater
      · rw [List.append_nil]
        exact ⟨ih.1, fun instant hi => Int.le_trans (ih.2 instant hi) hlater⟩

end Run

end Pipeline

end PacedFeed
