import PacedFeed.Proofs.Pipeline.Flush
import PacedFeed.Proofs.Pipeline.Periods
import PacedFeed.Proofs.Session.Run

-- Starting and stopping, however it is done, and what of it shows in the frame times.

namespace PacedFeed

namespace Coordinator

section Stop

variable (coordinator : Coordinator) (now : Instant)

-- Without a flush, stopping moves no message and leaves the budget alone.
theorem stop_keeps (h : coordinator.config.flushOnStop = false) :
    (coordinator.stop now).2.channel = coordinator.channel ∧
      (coordinator.stop now).2.budget = coordinator.budget := by
  by_cases hr : coordinator.lifecycle = .running
  · rw [coordinator.stop_of_running now hr, if_neg (Bool.eq_false_iff.mp h)]
    exact ⟨rfl, rfl⟩
  · rw [coordinator.stop_of_not_running now hr]
    exact ⟨rfl, rfl⟩

end Stop

end Coordinator

namespace Session

theorem coordinator_stop (session : Session) :
    (session.step .stop).coordinator = session.coordinator ∨
      (session.step .stop).coordinator = (session.coordinator.stop session.now).2 := by
  have hstop := congrArg Pipeline.coordinator (session.pipeline_step .stop)
  cases hr : session.released with
  | true =>
      simp only [calls, reach, hr, if_true] at hstop
      exact .inl hstop
  | false =>
      simp only [calls, reach, hr] at hstop
      exact .inr hstop

-- A step moves the tick on by the frames among what it asks for.
theorem tick_step (session : Session) (step : Step) :
    (session.step step).coordinator.tick.frame =
      session.coordinator.tick.frame +
        (session.pipeline.frameTimes (session.calls step)).length := by
  have hstep := congrArg Pipeline.coordinator (session.pipeline_step step)
  have htick := session.pipeline.tick_run (session.calls step)
  exact (congrArg (fun coordinator : Coordinator => coordinator.tick.frame) hstep).trans htick

theorem stop_keeps (session : Session) (h : session.coordinator.config.flushOnStop = false) :
    (session.step .stop).coordinator.channel = session.coordinator.channel ∧
      (session.step .stop).coordinator.budget = session.coordinator.budget := by
  obtain hsame | hstop := session.coordinator_stop
  · rw [hsame]
    exact ⟨rfl, rfl⟩
  · rw [hstop]
    exact session.coordinator.stop_keeps session.now h

section Run

variable {config : PipelineConfig} {start : Instant} {coordinator : Coordinator}

-- Whatever is asked of a session, and in which order: what is recorded of the lifecycle makes a
-- trail, ticks count the frames, and frame times are taken between the frames of one period only.
-- Stopping without a flush leaves everything for a flush to come.
theorem lifecycle_accounted (hc : Coordinator.create config start = .ok coordinator)
    (steps : List Step) :
    let origin : Pipeline := ⟨coordinator, start⟩
    let session := (Session.new coordinator start).run steps
    let calls := (Session.new coordinator start).allCalls steps
    let events := origin.recorded calls
    let instants := origin.frameTimes calls
    let periods := origin.periods calls
    let samples := origin.samples calls
    session.pipeline = origin.run calls ∧
    session.coordinator.recorder.events = Recorder.newest events ∧
    Lifecycle.Trail .idle (transitions events) session.coordinator.lifecycle ∧
    (∃ source, Lifecycle.Trail source (transitions session.coordinator.recorder.events)
      session.coordinator.lifecycle) ∧
    session.coordinator.tick.frame = instants.length ∧
    (∀ step, (session.step step).coordinator.tick.frame =
      session.coordinator.tick.frame +
        (session.pipeline.frameTimes (session.calls step)).length) ∧
    starts events =
      periods.past.length + (if session.coordinator.lifecycle = .running then 1 else 0) ∧
    (session.coordinator.lifecycle ≠ .running → periods.current = []) ∧
    instants.Pairwise (· ≤ ·) ∧
    periods.all.flatten = instants ∧
    samples = periods.all.flatMap gaps ∧
    (∀ period ∈ periods.all, (gaps period).length = period.length - 1) ∧
    session.coordinator.monitor.frames.toList =
      samples.drop (samples.length - FrameMonitor.defaultFrameWindow) ∧
    (config.flushOnStop = false →
      let stopped := (session.step .stop).coordinator
      stopped.channel = session.coordinator.channel ∧
      stopped.budget = session.coordinator.budget ∧
      ∀ now,
        let flushed := (stopped.flush now).2
        (stopped.flush now).1 = (session.coordinator.flush now).1 ∧
        flushed.channel = (session.coordinator.flush now).2.channel ∧
        flushed.ring.items.toList = [] ∧ flushed.batcher.pending.toList = []) := by
  intro origin session calls events instants periods samples
  have hrun : session.pipeline = origin.run calls :=
    (Session.new coordinator start).pipeline_run steps
  have hcoordinator : session.coordinator = (origin.run calls).coordinator :=
    congrArg Pipeline.coordinator hrun
  have horigin : origin.coordinator.lifecycle = .idle ∧ origin.coordinator.tick.frame = 0 := by
    obtain ⟨-, rfl⟩ := Coordinator.create_eq_ok_iff.mp hc
    exact ⟨rfl, rfl⟩
  have hevents := Pipeline.events_created calls hc
  have htracked := Pipeline.tracked_run calls hc
  have htick := origin.tick_run calls
  have htrail := origin.trail_run calls
  obtain ⟨hwindow, hframes⟩ := Pipeline.frames_run calls hc
  have haccounted := Pipeline.accounted_run hc calls
  rw [horigin.1] at htrail
  rw [horigin.2, Nat.zero_add] at htick
  rw [hwindow] at hframes
  have hstarts := htracked.starts_eq
  have hcurrent := htracked.current_eq_nil
  rw [← hcoordinator] at hevents htick htrail hframes haccounted hstarts hcurrent
  refine ⟨hrun, hevents, htrail, hevents ▸ exists_trail_newest htrail, htick, session.tick_step,
    hstarts, hcurrent,
    (origin.frameTimes_sorted calls).1, htracked.flatten_eq, htracked.samples_eq,
    fun period _ => length_gaps period, hframes, fun hf => ?_⟩
  have hconfig : session.coordinator.config = config := haccounted.config_eq
  obtain ⟨hchannel, hbudget⟩ := session.stop_keeps (hconfig ▸ hf)
  obtain ⟨gone, -, hledger⟩ := haccounted.balanced
  have hring : (session.step .stop).coordinator.ring = session.coordinator.ring :=
    congrArg Channel.ring hchannel
  refine ⟨hchannel, hbudget, fun now => ⟨?_, ?_, ?_⟩⟩
  · exact session.coordinator.flushFor_fst_congr now hchannel .explicit
  · exact session.coordinator.channel_flushFor_congr now hchannel .explicit
  · exact Coordinator.flush_empties _ now (hring ▸ hledger.size_le)

end Run

theorem lifecycle_accounted_restarted :
    let config : PipelineConfig := {}
    let steps : List Step :=
      [.startOnCadence, .fire, .advance 20000000, .fire, .start, .stop, .advance 5000000000,
        .start, .tick]
    let session := (Session.new (.new config 0) 0).run steps
    let calls := (Session.new (.new config 0) 0).allCalls steps
    Coordinator.create config 0 = .ok (.new config 0) ∧
    Pipeline.samples ⟨.new config 0, 0⟩ calls = [20000000] ∧
    session.pipeline = Pipeline.run ⟨.new config 0, 0⟩ calls ∧
    Pipeline.samples ⟨.new config 0, 0⟩ calls =
      (Pipeline.periods ⟨.new config 0, 0⟩ calls).all.flatMap gaps ∧
    transitions session.coordinator.recorder.events =
      [(.idle, .running), (.running, .stopped), (.stopped, .running)] ∧
    (session.step .stop).coordinator.channel = session.coordinator.channel := by
  intro config steps session calls
  obtain ⟨hsamples, htransitions⟩ : Pipeline.samples ⟨.new config 0, 0⟩ calls = [20000000] ∧
      transitions (Recorder.newest (Pipeline.recorded ⟨.new config 0, 0⟩ calls)) =
        [(.idle, .running), (.running, .stopped), (.stopped, .running)] := by
    decide +kernel +revert
  have hc : Coordinator.create config 0 = .ok (.new config 0) :=
    Coordinator.create_eq_ok_iff.mpr ⟨rfl, rfl⟩
  obtain ⟨hrun, hevents, -, -, -, -, -, -, -, -, hgaps, -, -, hstop⟩ :=
    lifecycle_accounted hc steps
  -- rewritten, since the run is evaluated to compare the two otherwise
  have hkept : transitions session.coordinator.recorder.events =
      [(.idle, .running), (.running, .stopped), (.stopped, .running)] := by
    rw [hevents, htransitions]
  exact ⟨hc, hsamples, hrun, hgaps, hkept, (hstop rfl).1⟩

end Session

end PacedFeed
