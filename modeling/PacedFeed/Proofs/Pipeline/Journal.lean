import PacedFeed.Proofs.Pipeline.Counters
import PacedFeed.Proofs.Pipeline.Overload
import PacedFeed.Proofs.Pipeline.Throttle
import PacedFeed.Proofs.Ring.Rates
import PacedFeed.Proofs.Telemetry.Events

-- Whatever a coordinator records can be written out and read back.

namespace PacedFeed

namespace Event

-- The rates in an event are parts of a whole, the first one of one and the other of a hundred.
def InRange : Event → Prop
  | .overloadStarted _ dropRate utilization => dropRate.UpTo 1 ∧ utilization.UpTo 100
  | _ => True

structure Legible (event : Event) : Prop where
  writable : Writable event.counts event.reals
  inRange : event.InRange

section Legible

variable {tick : Tick}

-- Without rates, numbers that are words are enough.
theorem legible_of_counts {event : Event} (hr : event.reals = []) (hi : event.InRange)
    (h : ∀ n ∈ event.counts, n < wordLimit) : event.Legible := by
  refine ⟨⟨h, ?_⟩, hi⟩
  rw [hr]
  exact List.forall_mem_nil _

theorem legible_ofOverload (h : tick.frame < wordLimit) {dropRate utilization : Double}
    (hd : dropRate.UpTo 1) (hu : utilization.UpTo 100) (before after : Option Tick) :
    ∀ event ∈ ofOverload tick dropRate utilization before after, event.Legible := by
  unfold ofOverload
  intro event he
  split at he
  · rw [List.mem_singleton.mp he]
    have hfinite := And.intro hd.isFinite hu.isFinite
    exact ⟨⟨List.forall_mem_singleton.mpr h, by simpa [reals] using hfinite⟩, hd, hu⟩
  · rename_i since
    rw [List.mem_singleton.mp he]
    have hduration : tick.frame - since.frame < wordLimit :=
      Nat.lt_of_le_of_lt (Nat.sub_le _ _) h
    exact legible_of_counts rfl trivial (by simpa [counts] using ⟨h, hduration⟩)
  · cases he

end Legible

end Event

namespace Pipeline

section Reports

variable (coordinator : Coordinator) (now : Instant)

theorem legible_requestReports (request : LifecycleRequest)
    (h : coordinator.tick.frame < wordLimit) :
    ∀ event ∈ coordinator.requestReports request, event.Legible := by
  intro event he
  obtain ⟨next, -, rfl⟩ := Option.map_eq_some_iff.mp (Option.mem_toList.mp he)
  exact Event.legible_of_counts rfl trivial (List.forall_mem_singleton.mpr h)

-- The messages of a flush are appended to the window.
theorem flushFor_fst_le (reason : FlushReason) :
    (coordinator.flushFor reason now).1 ≤ (coordinator.flushFor reason now).2.rendered := by
  rw [← Coordinator.rendered_channel, Coordinator.channel_flushFor, Coordinator.flushFor_fst]
  exact Nat.le_add_left _ _

theorem legible_flushReports (reason : FlushReason)
    (h : (coordinator.flushFor reason now).2.rendered < wordLimit) :
    ∀ event ∈ coordinator.flushReports reason now, event.Legible := by
  intro event he
  have hmessages := Nat.lt_of_le_of_lt (flushFor_fst_le coordinator now reason) h
  rw [List.mem_singleton.mp he]
  exact Event.legible_of_counts rfl trivial (List.forall_mem_singleton.mpr hmessages)

theorem legible_tuningReports (snapshot : Snapshot) (h : coordinator.tick.frame < wordLimit) :
    ∀ event ∈ coordinator.tuningReports snapshot now, event.Legible := by
  intro event he
  obtain ⟨recommendation, -, rfl⟩ := List.mem_map.mp he
  exact Event.legible_of_counts rfl trivial (List.forall_mem_singleton.mpr h)

end Reports

-- What events count is still in the range of a word. A run leaves it after 2^64 messages or frames.
structure Fits (state : Pipeline) : Prop where
  enqueued_lt : state.coordinator.ring.enqueued < wordLimit
  frame_lt : state.coordinator.tick.frame < wordLimit

section Run

variable {config : PipelineConfig} {start : Instant} {coordinator : Coordinator}

-- Nothing is appended to the window that was not taken in before.
theorem rendered_le_enqueued (hc : Coordinator.create config start = .ok coordinator)
    (steps : List Step) :
    let state := (run ⟨coordinator, start⟩ steps).coordinator
    state.rendered ≤ state.ring.enqueued := by
  dsimp only
  obtain ⟨-, hring, hdequeued⟩ := ring_counters hc steps
  obtain ⟨hreceived, hbatcher, -, -, hemitted, hle, -⟩ := batcher_counters hc steps
  obtain ⟨hrendered, -⟩ := window_counters hc steps
  omega

-- Counters only ever grow.
theorem Fits.of_step (hc : Coordinator.create config start = .ok coordinator) {steps : List Step}
    {last : Step} (h : (run ⟨coordinator, start⟩ (steps ++ [last])).Fits) :
    (run ⟨coordinator, start⟩ steps).Fits := by
  constructor
  · obtain ⟨hbefore, -⟩ := ring_counters hc steps
    obtain ⟨hafter, -⟩ := ring_counters hc (steps ++ [last])
    have hlt := h.enqueued_lt
    rw [history, trace_concat, accepted_append, List.length_append] at hafter
    rw [hbefore]
    refine Nat.lt_of_le_of_lt (Nat.le_add_right _ _) (hafter ▸ hlt)
  · have hlt := h.frame_lt
    rw [run_concat, tick_step] at hlt
    exact Nat.lt_of_le_of_lt (Nat.le_add_right _ _) hlt

theorem rates_run (hc : Coordinator.create config start = .ok coordinator)
    (hw : config.ringCapacity < wordLimit) {steps : List Step}
    (h : (run ⟨coordinator, start⟩ steps).Fits) (now : Instant) :
    let metrics := (run ⟨coordinator, start⟩ steps).coordinator.ring.metrics now
    metrics.dropRate.UpTo 1 ∧ metrics.utilization.UpTo 100 := by
  intro metrics
  have haccounted := accounted_run hc steps
  obtain ⟨gone, -, hledger⟩ := haccounted.balanced
  have hcapacity := haccounted.capacity_eq
  obtain ⟨-, hring, -⟩ := ring_counters hc steps
  refine ⟨Ring.upTo_dropRate ?_ h.enqueued_lt now,
    Ring.upTo_utilization hledger.size_le hledger.capacity_pos ?_ now⟩
  · omega
  · exact hcapacity ▸ hw

end Run

section Step

variable {state : Pipeline} {step : Step}

theorem ring_of_isFrame (h : state.isFrame step = true) :
    (state.step step).coordinator.ring = (state.coordinator.afterDelivery state.now).ring := by
  have hframe := state.coordinator.channel_runFrame state.now (isFrame_iff.mp h).2
  rw [(step_of_isFrame h).1, ← Coordinator.ring_channel, hframe, Coordinator.ring_channel]

theorem enqueued_of_isFrame (h : state.isFrame step = true) :
    (state.step step).coordinator.ring.enqueued = state.coordinator.ring.enqueued := by
  rw [ring_of_isFrame h, ← Coordinator.ring_channel, Coordinator.channel_afterDelivery]
  rfl

theorem frame_le_step (state : Pipeline) (step : Step) :
    state.coordinator.tick.frame ≤ (state.step step).coordinator.tick.frame := by
  rw [tick_step]
  exact Nat.le_add_right _ _

-- What a frame reports, given the rates in the ring that it leaves behind.
theorem legible_of_isFrame (hf : state.isFrame step = true) (h : (state.step step).Fits)
    (hr : let metrics := (state.step step).coordinator.ring.metrics state.now
      metrics.dropRate.UpTo 1 ∧ metrics.utilization.UpTo 100) :
    ∀ event ∈ state.reports step, event.Legible := by
  have htick := h.frame_lt
  rw [tick_of_isFrame hf] at htick
  rw [ring_of_isFrame hf] at hr
  rw [(step_of_isFrame hf).2]
  intro event he
  rcases List.mem_append.mp he with he | he
  · rw [← state.coordinator.tick_afterDelivery state.now] at htick
    exact Event.legible_ofOverload htick hr.1 hr.2 _ _ event he
  · rw [← (status_observed state).1] at htick
    exact legible_tuningReports _ state.now _ htick event he

-- A flush appends what it reports to the window, and there is room for it in the counters.
theorem legible_of_not_frame (hf : state.isFrame step = false) (h : (state.step step).Fits)
    (hr : (state.step step).coordinator.rendered < wordLimit) :
    ∀ event ∈ state.reports step, event.Legible := by
  have htick := Nat.lt_of_le_of_lt (frame_le_step state step) h.frame_lt
  cases step with
  | start => exact legible_requestReports _ .start htick
  | stop =>
      intro event he
      rcases List.mem_append.mp he with he | he
      · exact legible_requestReports _ .stop htick event he
      · split at he
        · rename_i hflush
          rw [Pipeline.step, ← Coordinator.rendered_channel, Coordinator.channel_stop,
            if_pos hflush, Coordinator.rendered_channel] at hr
          exact legible_flushReports _ state.now .stop hr event he
        · cases he
  | tick =>
      rw [reports_tick hf]
      exact List.forall_mem_nil _
  | flush => exact legible_flushReports _ state.now .explicit hr
  | ingest | ingestAll | advance | scrollTo | scrollToBottom | setFollowTail =>
      exact List.forall_mem_nil _

end Step

section Run

variable {config : PipelineConfig} {start : Instant} {coordinator : Coordinator}

theorem legible_recorded (hc : Coordinator.create config start = .ok coordinator)
    (hw : config.ringCapacity < wordLimit) (steps : List Step)
    (h : (run ⟨coordinator, start⟩ steps).Fits) :
    ∀ event ∈ recorded ⟨coordinator, start⟩ steps, event.Legible := by
  induction steps using List.reverseRecOn with
  | nil => exact List.forall_mem_nil _
  | append_singleton steps last ih =>
      have hrates := rates_run hc hw h (run ⟨coordinator, start⟩ steps).now
      have hrendered := Nat.lt_of_le_of_lt (rendered_le_enqueued hc (steps ++ [last])) h.enqueued_lt
      have hpast := ih (h.of_step hc)
      rw [run_concat] at h hrates hrendered
      rw [recorded_concat]
      refine List.forall_mem_append.mpr ⟨hpast, ?_⟩
      by_cases hf : (run ⟨coordinator, start⟩ steps).isFrame last = true
      · exact legible_of_isFrame hf h hrates
      · exact legible_of_not_frame (eq_false_of_ne_true hf) h hrendered

end Run

-- Events are read as they were written, and no two are written alike. All that a coordinator ever
-- records can be written, so its log is read back as it is.
theorem journal_readable :
    (∀ event : PacedFeed.Event, Writable event.counts event.reals →
      PacedFeed.Event.ofText? event.render = some event) ∧
    (∀ first second : PacedFeed.Event, Writable first.counts first.reals →
      Writable second.counts second.reals → first.render = second.render → first = second) ∧
    ∀ (config : PipelineConfig) (start : Instant) (coordinator : Coordinator),
      Coordinator.create config start = .ok coordinator → config.ringCapacity < wordLimit →
      ∀ steps : List Step,
        let state := run ⟨coordinator, start⟩ steps
        let journal := state.coordinator.recorder.events
        state.Fits →
          (∀ event ∈ recorded ⟨coordinator, start⟩ steps, event.Legible) ∧
          journal <:+ recorded ⟨coordinator, start⟩ steps ∧
          (journal.map PacedFeed.Event.render).mapM PacedFeed.Event.ofText? = some journal := by
  refine ⟨fun event => PacedFeed.Event.ofText?_render,
    fun first second => PacedFeed.Event.eq_of_render_eq, ?_⟩
  intro config start coordinator hc hw steps state journal hfits
  have hlegible := legible_recorded hc hw steps hfits
  have hjournal : journal <:+ recorded ⟨coordinator, start⟩ steps := by
    have hevents : journal = _ := congrArg Recorder.events (recorder_created steps hc)
    rw [hevents, Recorder.events_empty_recordAll]
    exact Recorder.newest_suffix _
  refine ⟨hlegible, hjournal, PacedFeed.Event.mapM_ofText?_render fun event he => ?_⟩
  exact (hlegible event (hjournal.subset he)).writable

theorem journal_readable_overrun :
    let config : PipelineConfig := { ringCapacity := 2 }
    let message : String → Message := fun id => ⟨id, .tool, .control, "x", 0, []⟩
    let steps : List Step := [.start, .ingestAll 0 [message "a", message "b", message "c"], .tick]
    let state := run ⟨.new config 0, 0⟩ steps
    let journal := state.coordinator.recorder.events
    Coordinator.create config 0 = .ok (.new config 0) ∧ state.Fits ∧
    (∃ dropRate utilization, .overloadStarted state.coordinator.tick dropRate utilization ∈
      recorded ⟨.new config 0, 0⟩ steps) ∧
    (journal.map PacedFeed.Event.render).mapM PacedFeed.Event.ofText? = some journal := by
  intro config message steps state journal
  let past : List Step := [.start, .ingestAll 0 [message "a", message "b", message "c"]]
  let before := run ⟨.new config 0, 0⟩ past
  obtain ⟨hf, henqueued, hframe, hdropped, hsince⟩ : before.isFrame .tick = true ∧
      before.coordinator.ring.enqueued = 3 ∧ before.coordinator.tick.frame = 0 ∧
      before.coordinator.lastDropped < before.coordinator.ring.dropped ∧
      before.coordinator.overloadSince = none := by
    decide +kernel +revert
  have hc : Coordinator.create config 0 = .ok (.new config 0) :=
    Coordinator.create_eq_ok_iff.mpr ⟨rfl, rfl⟩
  have hstate : state = before.step .tick := rfl
  have hfits : state.Fits := by
    constructor
    · rw [hstate, enqueued_of_isFrame hf, henqueued]
      decide
    · rw [hstate, tick_of_isFrame hf, Tick.next, hframe]
      decide
  obtain ⟨-, hstarted, -⟩ := noted_of_isFrame hf
  obtain ⟨dropRate, utilization, hnoted⟩ := hstarted.mpr ⟨hdropped, hsince⟩
  have hmem : .overloadStarted state.coordinator.tick dropRate utilization ∈
      before.reports .tick :=
    List.mem_of_mem_filter (hnoted ▸ List.mem_singleton_self _)
  have hrecorded : recorded ⟨.new config 0, 0⟩ steps =
      recorded ⟨.new config 0, 0⟩ past ++ before.reports .tick := recorded_concat _ past .tick
  obtain ⟨-, -, hread⟩ := journal_readable.2.2 config 0 _ hc (by decide) steps hfits
  refine ⟨hc, hfits, ⟨dropRate, utilization, ?_⟩, hread⟩
  rw [hrecorded]
  exact List.mem_append_right _ hmem

end Pipeline

end PacedFeed
