import PacedFeed.Proofs.Coordinator.Untuned
import PacedFeed.Proofs.Pipeline.Accounts
import PacedFeed.Proofs.Pipeline.Log

-- Two coordinators with the same settings, one that gives advice and one that gives none, go
-- through the same steps alike.

namespace PacedFeed.Pipeline

-- What a step gives back to whoever asked for it.
inductive Answer where
  | outcome (answer : Except IngestError IngestOutcome)
  | summary (summary : IngestSummary)
  | followed (done : Bool)
  | report (report : Except Overflow (Option TickReport))
  | flushed (messages : Nat)
  | offset (offset : Nat)
  | silent

def answer (state : Pipeline) : Step → Answer
  | .ingest _ message => .outcome (state.coordinator.ingest message).1
  | .ingestAll _ messages => .summary (state.coordinator.ingestAll messages).1
  | .start => .followed state.coordinator.start.1
  | .stop => .followed (state.coordinator.stop state.now).1
  | .tick => .report (state.coordinator.runFrame state.now).1
  | .flush => .flushed (state.coordinator.flush state.now).1
  | .scrollTo offset => .offset (state.coordinator.window.scrollTo offset).1
  | .scrollToBottom => .offset state.coordinator.window.scrollToBottom.1
  | .advance _ | .setFollowTail _ => .silent

def answers (state : Pipeline) (steps : List Step) : List Answer :=
  trace step (fun state step => [state.answer step]) state steps

def untuned (state : Pipeline) : Pipeline :=
  { state with coordinator := state.coordinator.untuned }

section Step

variable (state : Pipeline) (step : Step)

theorem untuned_ingestAll (coordinator : Coordinator) (messages : List Message) :
    (coordinator.ingestAll messages).2.untuned = (coordinator.untuned.ingestAll messages).2 := by
  rw [ingestAll_snd, ingestAll_snd]
  induction messages generalizing coordinator with
  | nil => rfl
  | cons message messages ih =>
      rw [List.foldl_cons, List.foldl_cons, ih, Coordinator.untuned_ingest]

theorem submit_untuned (coordinator : Coordinator) (producer : Nat) (message : Message) :
    submit coordinator.untuned producer message = submit coordinator producer message := by
  simp only [submit, Coordinator.ingest_untuned]
  rfl

theorem submitAll_untuned (coordinator : Coordinator) (producer : Nat) (messages : List Message) :
    submitAll coordinator.untuned producer messages = submitAll coordinator producer messages := by
  induction messages generalizing coordinator with
  | nil => rfl
  | cons message messages ih =>
      rw [submitAll, submitAll, submit_untuned, ← Coordinator.untuned_ingest, ih]

theorem happen_untuned : state.untuned.happen step = state.happen step := by
  cases step with
  | ingest | ingestAll => exact submitAll_untuned _ _ _
  | _ => rfl

theorem untuned_step (h : state.coordinator.config.tuning.mode ≠ .apply) :
    (state.untuned.step step).untuned = (state.step step).untuned := by
  cases step with
  | ingest producer message =>
      have hagain := state.coordinator.untuned.untuned_ingest message
      exact congrArg (Pipeline.mk · _) (hagain.trans (state.coordinator.untuned_ingest _).symm)
  | ingestAll producer messages =>
      have hagain := untuned_ingestAll state.coordinator.untuned messages
      exact congrArg (Pipeline.mk · _) (hagain.trans (untuned_ingestAll state.coordinator _).symm)
  | start => exact congrArg (Pipeline.mk · _) state.coordinator.untuned_start.symm
  | stop => exact congrArg (Pipeline.mk · _) (state.coordinator.untuned_stop _).symm
  | tick => exact congrArg (Pipeline.mk · _) (state.coordinator.untuned_runFrame _ h).2
  | flush => exact congrArg (Pipeline.mk · _) (state.coordinator.untuned_flushFor _ _).symm
  | advance | scrollTo | scrollToBottom | setFollowTail => rfl

theorem answer_untuned (h : state.coordinator.config.tuning.mode ≠ .apply) :
    state.untuned.answer step = state.answer step := by
  cases step with
  | ingest producer message =>
      exact congrArg (fun entry : Submission => Answer.outcome entry.answer)
        (submit_untuned state.coordinator producer message)
  | ingestAll producer messages =>
      refine congrArg Answer.summary ?_
      rw [ingestAll_fst _ producer, ingestAll_fst _ producer, untuned, submitAll_untuned]
  | start =>
      refine congrArg Answer.followed ?_
      rw [Coordinator.start_fst, Coordinator.start_fst]
      rfl
  | stop =>
      refine congrArg Answer.followed ?_
      rw [Coordinator.stop_fst, Coordinator.stop_fst]
      rfl
  | tick => exact congrArg Answer.report (state.coordinator.untuned_runFrame _ h).1
  | flush => rfl
  | advance | scrollTo | scrollToBottom | setFollowTail => rfl

theorem reports_untuned :
    state.untuned.reports step =
      (state.reports step).filter fun event => !event.isRecommendation := by
  by_cases hf : state.isFrame step = true
  · obtain ⟨rfl, -⟩ := isFrame_iff.mp hf
    have hframe := state.coordinator.frameReports_untuned state.now
    rw [(step_of_isFrame hf).2, ← hframe]
    exact if_pos hf
  · have hnone := reports_of_not_frame (eq_false_of_ne_true hf)
    have hsame : state.untuned.reports step = state.reports step := by
      cases step with
      | tick => exact (if_neg hf).trans (if_neg hf).symm
      | _ => rfl
    rw [hsame, List.filter_eq_self.mpr]
    intro event he
    rw [(hnone event he).2]
    rfl

theorem stamped_untuned :
    state.untuned.stamped step =
      (state.stamped step).filter fun report => !report.event.isRecommendation := by
  rw [stamped, reports_untuned, stamped, List.filter_map]
  rfl

end Step

section Run

variable {config : PipelineConfig} {start : Instant} {off advisory : Coordinator}

theorem mode_run_ne_apply {mode : TuningMode} {coordinator : Coordinator}
    (hc : Coordinator.create (config.withMode mode) start = .ok coordinator)
    (hm : mode ≠ .apply) (steps : List Step) :
    (run ⟨coordinator, start⟩ steps).coordinator.config.tuning.mode ≠ .apply := by
  rw [config_run hc]
  exact hm

section Alike

variable (ho : Coordinator.create (config.withMode .off) start = .ok off)
variable (ha : Coordinator.create (config.withMode .advisory) start = .ok advisory)

include ho ha

-- All that is not advice stays alike along both runs.
theorem untuned_run (steps : List Step) :
    (run ⟨advisory, start⟩ steps).untuned = (run ⟨off, start⟩ steps).untuned := by
  induction steps using List.reverseRecOn with
  | nil =>
      obtain ⟨-, rfl⟩ := Coordinator.create_eq_ok_iff.mp ho
      obtain ⟨-, rfl⟩ := Coordinator.create_eq_ok_iff.mp ha
      rfl
  | append_singleton steps last ih =>
      have hoff := mode_run_ne_apply ho TuningMode.noConfusion steps
      have hadvisory := mode_run_ne_apply ha TuningMode.noConfusion steps
      rw [run_concat, run_concat, ← untuned_step _ _ hoff, ← untuned_step _ _ hadvisory, ih]

-- A look at what is alike sees the same in both runs.
theorem observe_run {α : Type} {observe : Pipeline → Step → α}
    (h : ∀ state step, state.coordinator.config.tuning.mode ≠ .apply →
      observe state.untuned step = observe state step) (steps : List Step) (step : Step) :
    observe (run ⟨advisory, start⟩ steps) step = observe (run ⟨off, start⟩ steps) step := by
  rw [← h _ step (mode_run_ne_apply ho TuningMode.noConfusion steps),
    ← h _ step (mode_run_ne_apply ha TuningMode.noConfusion steps), untuned_run ho ha]

theorem answers_run (steps : List Step) :
    answers ⟨advisory, start⟩ steps = answers ⟨off, start⟩ steps := by
  refine trace_congr _ _ (observe_run ho ha fun state step h => ?_) steps
  rw [answer_untuned state step h]

theorem history_run (steps : List Step) :
    history ⟨advisory, start⟩ steps = history ⟨off, start⟩ steps :=
  trace_congr _ _ (observe_run ho ha fun state step _ => state.happen_untuned step) steps

-- All that one records more is advice.
theorem log_run (steps : List Step) :
    (log ⟨advisory, start⟩ steps).filter (fun report => !report.event.isRecommendation) =
      log ⟨off, start⟩ steps := by
  rw [log, filter_trace]
  refine trace_congr _ _ (fun before step => ?_) steps
  have hnone : ∀ report ∈ (run ⟨off, start⟩ before).stamped step,
      (!report.event.isRecommendation) = true := by
    intro report hr
    obtain ⟨event, he, rfl⟩ := List.mem_map.mp hr
    have hoff : (run ⟨off, start⟩ before).coordinator.config.tuning.mode = .off := by
      rw [config_run ho]
      rfl
    rw [reports_of_off hoff event he]
    rfl
  have hsame := (run ⟨off, start⟩ before).stamped_untuned step
  rw [List.filter_eq_self.mpr hnone, ← untuned_run ho ha, stamped_untuned] at hsame
  exact hsame

theorem recorded_run (steps : List Step) :
    (recorded ⟨advisory, start⟩ steps).filter (fun event => !event.isRecommendation) =
      recorded ⟨off, start⟩ steps := by
  rw [recorded, recorded, ← log_run ho ha, List.filter_map]
  rfl

theorem retained_run (steps : List Step) :
    let events := (run ⟨off, start⟩ steps).coordinator.recorder.events
    let retained := (run ⟨advisory, start⟩ steps).coordinator.recorder.events.filter fun event =>
      !event.isRecommendation
    retained <:+ events ∧
      ((log ⟨advisory, start⟩ steps).length ≤ Recorder.limit → retained = events) := by
  dsimp only
  rw [recorder_created steps ho, recorder_created steps ha, ← recorded_run ho ha]
  refine ⟨Recorder.filter_events_suffix _ _, fun hfew => ?_⟩
  have hall : (recorded ⟨advisory, start⟩ steps).length ≤ Recorder.limit := by
    rwa [recorded, List.length_map]
  have hsome := Nat.le_trans (List.length_filter_le (fun event => !event.isRecommendation) _) hall
  rw [Recorder.events_empty_recordAll, Recorder.events_empty_recordAll, Recorder.newest_of_le hall,
    Recorder.newest_of_le hsome]

end Alike

-- Advice changes nothing. Both runs give the same answers, deliver the same batches and are in the
-- same state but for the advice and its time. What is recorded is the same but for the advice,
-- which takes its place among the events that are retained.
theorem advice_inert (ho : Coordinator.create (config.withMode .off) start = .ok off)
    (ha : Coordinator.create (config.withMode .advisory) start = .ok advisory)
    (steps : List Step) :
    let plain := run ⟨off, start⟩ steps
    let advised := run ⟨advisory, start⟩ steps
    let retained := advised.coordinator.recorder.events.filter fun event =>
      !event.isRecommendation
    answers ⟨advisory, start⟩ steps = answers ⟨off, start⟩ steps ∧
    history ⟨advisory, start⟩ steps = history ⟨off, start⟩ steps ∧
    advised.now = plain.now ∧
    advised.coordinator =
      { plain.coordinator with
        config := config.withMode .advisory
        recorder := advised.coordinator.recorder
        lastTuning := advised.coordinator.lastTuning
        lastRecommendation := advised.coordinator.lastRecommendation } ∧
    (∀ now, advised.coordinator.snapshot now = plain.coordinator.snapshot now) ∧
    (log ⟨advisory, start⟩ steps).filter (fun report => !report.event.isRecommendation) =
      log ⟨off, start⟩ steps ∧
    retained <:+ plain.coordinator.recorder.events ∧
    ((log ⟨advisory, start⟩ steps).length ≤ Recorder.limit →
      retained = plain.coordinator.recorder.events) := by
  intro plain advised retained
  have halike : advised.untuned = plain.untuned := untuned_run ho ha steps
  have hcoordinator : advised.coordinator.untuned = plain.coordinator.untuned :=
    congrArg Pipeline.coordinator halike
  have hconfig : advised.coordinator.config = config.withMode .advisory := config_run ha steps
  have hstate := Coordinator.eq_of_untuned_eq hcoordinator
  rw [hconfig] at hstate
  have hnow : advised.untuned.now = plain.untuned.now := congrArg Pipeline.now halike
  have hsnapshot (now : Instant) :
      advised.coordinator.snapshot now = plain.coordinator.snapshot now := by
    rw [← Coordinator.snapshot_untuned, hcoordinator, Coordinator.snapshot_untuned]
  exact ⟨answers_run ho ha steps, history_run ho ha steps, hnow, hstate, hsnapshot,
    log_run ho ha steps, retained_run ho ha steps⟩

end Run

theorem advice_inert_slow :
    let config : PipelineConfig := {}
    let off := Coordinator.new (config.withMode .off) 0
    let advisory := Coordinator.new (config.withMode .advisory) 0
    let steps : List Step := [.start, .tick, .advance 100000000, .tick]
    Coordinator.create (config.withMode .off) 0 = .ok off ∧
    Coordinator.create (config.withMode .advisory) 0 = .ok advisory ∧
    (run ⟨off, 0⟩ steps).coordinator.lastTuning = none ∧
    (run ⟨advisory, 0⟩ steps).coordinator.lastTuning = some 100000000 ∧
    answers ⟨advisory, 0⟩ steps = answers ⟨off, 0⟩ steps := by
  intro config off advisory steps
  obtain ⟨hoff, hadvisory⟩ : (run ⟨off, 0⟩ steps).coordinator.lastTuning = none ∧
      (run ⟨advisory, 0⟩ steps).coordinator.lastTuning = some 100000000 := by
    decide +kernel +revert
  have ho : Coordinator.create (config.withMode .off) 0 = .ok off :=
    Coordinator.create_eq_ok_iff.mpr ⟨rfl, rfl⟩
  have ha : Coordinator.create (config.withMode .advisory) 0 = .ok advisory :=
    Coordinator.create_eq_ok_iff.mpr ⟨rfl, rfl⟩
  exact ⟨ho, ha, hoff, hadvisory, (advice_inert ho ha steps).1⟩

end PacedFeed.Pipeline
