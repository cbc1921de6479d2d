import Mathlib.Data.List.Induction
import PacedFeed.Proofs.Coordinator.Channel
import PacedFeed.Telemetry.Recorder

-- What the operations of a coordinator record, and how they change what decides about it.

namespace PacedFeed

namespace Event

def isOverload : Event → Bool
  | .overloadStarted .. | .overloadCleared .. => true
  | _ => false

def isRecommendation : Event → Bool
  | .tuningRecommended .. => true
  | _ => false

-- What is recorded when an overload begins or ends, by when it was noticed before and after.
def ofOverload (tick : Tick) (dropRate utilization : Double) :
    Option Tick → Option Tick → List Event
  | none, some _ => [.overloadStarted tick dropRate utilization]
  | some since, none => [.overloadCleared tick (tick.frame - since.frame)]
  | _, _ => []

def transition? : Event → Option (Lifecycle × Lifecycle)
  | .stateTransition source target _ => some (source, target)
  | _ => none

theorem isOverload_ofOverload (tick : Tick) (dropRate utilization : Double)
    (before after : Option Tick) :
    ∀ event ∈ ofOverload tick dropRate utilization before after, event.isOverload = true := by
  unfold ofOverload
  intro event he
  split at he
  · rw [List.mem_singleton.mp he]
    rfl
  · rw [List.mem_singleton.mp he]
    rfl
  · cases he

-- No event is of two kinds.
theorem kinds_of_isOverload {event : Event} (h : event.isOverload = true) :
    event.isRecommendation = false ∧ event.transition? = none := by
  cases event with
  | overloadStarted | overloadCleared => exact ⟨rfl, rfl⟩
  | stateTransition | tuningRecommended | flushed => cases h

theorem kinds_of_isRecommendation {event : Event} (h : event.isRecommendation = true) :
    event.isOverload = false ∧ event.transition? = none := by
  cases event with
  | tuningRecommended => exact ⟨rfl, rfl⟩
  | stateTransition | overloadStarted | overloadCleared | flushed => cases h

end Event

def Recorder.recordAll (recorder : Recorder) (events : List Event) : Recorder :=
  events.foldl record recorder

theorem Recorder.recordAll_append (recorder : Recorder) (first second : List Event) :
    recorder.recordAll (first ++ second) = (recorder.recordAll first).recordAll second :=
  List.foldl_append

theorem Recorder.recordAll_singleton (recorder : Recorder) (event : Event) :
    recorder.recordAll [event] = recorder.record event := by
  rw [recordAll, List.foldl_cons, List.foldl_nil]

-- What is kept of some events.
def Recorder.newest (events : List Event) : List Event :=
  events.drop (events.length - limit)

theorem Recorder.newest_suffix (events : List Event) : newest events <:+ events :=
  List.drop_suffix _ _

theorem Recorder.newest_of_le {events : List Event} (h : events.length ≤ limit) :
    newest events = events := by
  rw [newest, Nat.sub_eq_zero_of_le h, List.drop_zero]

theorem Recorder.getLast?_newest {events : List Event} {event : Event}
    (h : events.getLast? = some event) : (newest events).getLast? = some event := by
  have hpos : 0 < events.length := by
    refine List.length_pos_iff.mpr fun hnil => ?_
    rw [hnil] at h
    cases h
  have hlimit : 0 < limit := by decide
  rw [newest, List.getLast?_drop, if_neg (by omega), h]

theorem Recorder.events_record {recorder : Recorder} {past : List Event}
    (h : recorder.events = newest past) (event : Event) :
    (recorder.record event).events = newest (past ++ [event]) := by
  rw [events, newest] at h ⊢
  rw [record]
  generalize limit = limit at *
  exact Fifo.toList_keepNewest_push h event

theorem Recorder.events_recordAll {recorder : Recorder} {past : List Event}
    (h : recorder.events = newest past) (events : List Event) :
    (recorder.recordAll events).events = newest (past ++ events) := by
  induction events using List.reverseRecOn with
  | nil =>
      rw [List.append_nil]
      exact h
  | append_singleton events event ih =>
      rw [recordAll_append, recordAll_singleton, events_record ih, List.append_assoc]

theorem Recorder.events_empty_recordAll (events : List Event) :
    (empty.recordAll events).events = newest events := by
  have hnone : empty.events = newest [] := (newest_of_le (Nat.zero_le _)).symm
  exact events_recordAll hnone events

-- To leave events out before they are recorded leaves more room for others.
theorem Recorder.filter_events_suffix (p : Event → Bool) (events : List Event) :
    (empty.recordAll events).events.filter p <:+ (empty.recordAll (events.filter p)).events := by
  rw [events_empty_recordAll, events_empty_recordAll, newest, newest]
  generalize limit = limit
  have hsuffix : (events.drop (events.length - limit)).filter p <:+ events.filter p :=
    (List.drop_suffix _ _).filter p
  have hkept : ((events.drop (events.length - limit)).filter p).length ≤ limit := by
    have hle := List.length_filter_le p (events.drop (events.length - limit))
    rw [List.length_drop] at hle
    omega
  refine List.suffix_of_suffix_length_le hsuffix (List.drop_suffix _ _) ?_
  have hall := hsuffix.length_le
  rw [List.length_drop]
  omega

-- What only frames change, apart from what is on the way of messages.
structure Watch where
  tick : Tick
  frames : Fifo Duration
  frameWindow : Nat
  lastDropped : Nat
  overloadSince : Option Tick
  lastTuning : Option Instant

structure Status extends Watch where
  lifecycle : Lifecycle
  lastTick : Option Instant
  recorder : Recorder

namespace Coordinator

def status (coordinator : Coordinator) : Status where
  tick := coordinator.tick
  frames := coordinator.monitor.frames
  frameWindow := coordinator.monitor.frameWindow
  lastDropped := coordinator.lastDropped
  overloadSince := coordinator.overloadSince
  lastTuning := coordinator.lastTuning
  lifecycle := coordinator.lifecycle
  lastTick := coordinator.monitor.lastTick
  recorder := coordinator.recorder

def requestReports (coordinator : Coordinator) (request : LifecycleRequest) : List Event :=
  ((coordinator.lifecycle.transition request).map fun next =>
    .stateTransition coordinator.lifecycle next coordinator.tick).toList

def flushReports (coordinator : Coordinator) (reason : FlushReason) (now : Instant) : List Event :=
  [.flushed reason (coordinator.flushFor reason now).1]

def stopReports (coordinator : Coordinator) (now : Instant) : List Event :=
  coordinator.requestReports .stop ++
    if coordinator.lifecycle = .running ∧ coordinator.config.flushOnStop = true then
      coordinator.flushReports .stop now
    else []

-- The frame in which an overload was noticed, after a look at a snapshot.
def overloadAfter (coordinator : Coordinator) (snapshot : Snapshot) : Option Tick :=
  if coordinator.lastDropped < snapshot.dropped then
    some (coordinator.overloadSince.getD coordinator.tick)
  else none

def overloadReports (coordinator : Coordinator) (snapshot : Snapshot) : List Event :=
  Event.ofOverload coordinator.tick snapshot.dropRate snapshot.utilization coordinator.overloadSince
    (coordinator.overloadAfter snapshot)

-- What tuning recommends. Advice that cannot be followed is not passed on.
def recommendation? (coordinator : Coordinator) (snapshot : Snapshot) (now : Instant) :
    Option Recommendation :=
  (coordinator.advice? snapshot now).filter fun recommendation =>
    (coordinator.heed recommendation).isOk

def tuningReports (coordinator : Coordinator) (snapshot : Snapshot) (now : Instant) : List Event :=
  (coordinator.recommendation? snapshot now).toList.map fun recommendation =>
    .tuningRecommended coordinator.tick recommendation (coordinator.config.tuning.mode = .apply)

def observeReports (coordinator : Coordinator) (snapshot : Snapshot) (now : Instant) : List Event :=
  coordinator.overloadReports snapshot ++
    (coordinator.observeOverload snapshot).tuningReports snapshot now

-- What a frame records.
def frameReports (coordinator : Coordinator) (now : Instant) : List Event :=
  (coordinator.afterDelivery now).observeReports ((coordinator.afterDelivery now).snapshot now) now

-- A coordinator that was just stopped, before it flushes if that is asked for.
def halted (coordinator : Coordinator) : Coordinator :=
  { coordinator with
    lifecycle := .stopped
    monitor := coordinator.monitor.pause
    recorder := coordinator.recorder.recordAll (coordinator.requestReports .stop) }

section Status

variable (coordinator : Coordinator) (now : Instant)

theorem status_ingest (message : Message) :
    (coordinator.ingest message).2.status = coordinator.status := by
  unfold ingest
  split <;> rfl

-- Stated for any recorder, so that nothing runs the log against its limit to check it.
theorem status_setRecorder (recorder : Recorder) :
    Coordinator.status { coordinator with recorder := recorder } =
      { coordinator.status with recorder := recorder } := rfl

theorem status_record (event : Event) :
    (coordinator.record event).status =
      { coordinator.status with recorder := coordinator.recorder.record event } :=
  coordinator.status_setRecorder _

theorem status_deliver (batches : List Batch) :
    (coordinator.deliver batches now).2.status = coordinator.status :=
  coordinator.deliver_keeps now status (fun _ _ => rfl) batches

theorem status_flushFor (reason : FlushReason) :
    (coordinator.flushFor reason now).2.status =
      { coordinator.status with
        recorder := coordinator.recorder.recordAll (coordinator.flushReports reason now) } := by
  let collected := coordinator.collectAll now
  let delivered := collected.2.deliver collected.1.toList now
  have hcount : (coordinator.flushFor reason now).1 = delivered.1 := by rw [flushFor_eq]
  have hdelivered : delivered.2.status = coordinator.status :=
    collected.2.status_deliver now collected.1.toList
  have hrecorder : delivered.2.recorder = coordinator.recorder := congrArg Status.recorder hdelivered
  rw [flushReports, hcount, Recorder.recordAll_singleton, flushFor_eq, status_record, hdelivered,
    hrecorder]

theorem request?_eq (request : LifecycleRequest) :
    coordinator.request? request =
      (coordinator.lifecycle.transition request).map fun next =>
        { coordinator with
          lifecycle := next
          recorder := coordinator.recorder.recordAll (coordinator.requestReports request) } := by
  rw [request?, requestReports]
  cases coordinator.lifecycle.transition request with
  | none => rw [Option.map_none, Option.map_none]
  | some next =>
      simp only [Option.map_some, Option.toList_some, Recorder.recordAll_singleton, record]

theorem start_fst :
    coordinator.start.1 = (coordinator.lifecycle.transition .start).isSome := by
  rw [start, request?]
  cases coordinator.lifecycle.transition .start <;> rfl

theorem stop_fst :
    (coordinator.stop now).1 = (coordinator.lifecycle.transition .stop).isSome := by
  rw [stop, stopM, request?]
  cases coordinator.lifecycle.transition .stop with
  | none => rfl
  | some next =>
      simp only [Option.map_some]
      split <;> rfl

theorem status_start :
    coordinator.start.2.status =
      if coordinator.lifecycle = .running then coordinator.status
      else
        { coordinator.status with
          lifecycle := .running
          lastTick := none
          recorder := coordinator.recorder.recordAll (coordinator.requestReports .start) } := by
  rw [start, request?_eq]
  cases coordinator.lifecycle <;> rfl

theorem flushFor_fst (reason : FlushReason) :
    (coordinator.flushFor reason now).1 =
      ((coordinator.collectAll now).1.toList.map Batch.size).sum := rfl

-- How much a flush delivers depends on nothing else.
theorem flushFor_fst_congr {other : Coordinator} (h : other.channel = coordinator.channel)
    (reason : FlushReason) :
    (other.flushFor reason now).1 = (coordinator.flushFor reason now).1 := by
  have hring : other.ring = coordinator.ring := congrArg Channel.ring h
  have hbatcher : other.batcher = coordinator.batcher := congrArg Channel.batcher h
  rw [flushFor_fst, flushFor_fst, collectAll_fst, collectAll_fst, fed, fed, hring, hbatcher]

theorem stop_of_running (h : coordinator.lifecycle = .running) :
    (coordinator.stop now).2 =
      if coordinator.config.flushOnStop then (coordinator.halted.flushFor .stop now).2
      else coordinator.halted := by
  have hnext : coordinator.lifecycle.transition .stop = some .stopped := by
    rw [h]
    rfl
  rw [stop, stopM, request?_eq, hnext, Option.map_some]
  by_cases hf : coordinator.config.flushOnStop = true
  · simp only [hf, if_true]
    rfl
  · simp only [hf]
    rfl

theorem stop_of_not_running (h : coordinator.lifecycle ≠ .running) :
    coordinator.stop now = (false, coordinator) := by
  rw [stop, stopM, request?_eq, (Lifecycle.transition_stop_eq_none_iff _).mpr h, Option.map_none]
  rfl

theorem channel_halted : coordinator.halted.channel = coordinator.channel := rfl

theorem status_halted :
    coordinator.halted.status =
      { coordinator.status with
        lifecycle := .stopped
        lastTick := none
        recorder := coordinator.recorder.recordAll (coordinator.requestReports .stop) } := rfl

theorem status_stop :
    (coordinator.stop now).2.status =
      if coordinator.lifecycle = .running then
        { coordinator.status with
          lifecycle := .stopped
          lastTick := none
          recorder := coordinator.recorder.recordAll (coordinator.stopReports now) }
      else coordinator.status := by
  by_cases hr : coordinator.lifecycle = .running
  · rw [if_pos hr, coordinator.stop_of_running now hr, stopReports]
    by_cases hf : coordinator.config.flushOnStop = true
    · have hreports : coordinator.halted.flushReports .stop now =
          coordinator.flushReports .stop now := by
        rw [flushReports, flushReports,
          coordinator.flushFor_fst_congr now coordinator.channel_halted]
      rw [if_pos hf, if_pos ⟨hr, hf⟩, status_flushFor, status_halted, hreports,
        Recorder.recordAll_append]
      rfl
    · rw [if_neg hf, if_neg fun h => hf h.2, List.append_nil, status_halted]
  · rw [if_neg hr, coordinator.stop_of_not_running now hr]

theorem status_beginFrame :
    (coordinator.beginFrame now).status =
      { coordinator.status with
        tick := coordinator.tick.next
        frames := (coordinator.monitor.recordTick now).2.frames
        lastTick := some now } := by
  have hmonitor : (coordinator.beginFrame now).monitor =
      (coordinator.monitor.recordTick now).2 := rfl
  simp only [status, hmonitor, FrameMonitor.recordTick, FrameMonitor.recordFrame]
  split <;> rfl

theorem status_collectDue :
    (coordinator.collectDue now).2.status = coordinator.status := rfl

theorem status_afterDelivery :
    (coordinator.afterDelivery now).status =
      { coordinator.status with
        tick := coordinator.tick.next
        frames := (coordinator.monitor.recordTick now).2.frames
        lastTick := some now } := by
  rw [afterDelivery, status_deliver, status_collectDue, status_beginFrame]

theorem tick_afterDelivery : (coordinator.afterDelivery now).tick = coordinator.tick.next := by
  have hdelivered := coordinator.status_afterDelivery now
  exact congrArg (fun status : Status => status.tick) hdelivered

theorem status_observeOverload (snapshot : Snapshot) :
    (coordinator.observeOverload snapshot).status =
      { coordinator.status with
        lastDropped := snapshot.dropped
        overloadSince := coordinator.overloadAfter snapshot
        recorder := coordinator.recorder.recordAll (coordinator.overloadReports snapshot) } := by
  rw [observeOverload, observeOverloadM, overloadReports, overloadAfter]
  by_cases hd : coordinator.lastDropped < snapshot.dropped
  · cases coordinator.overloadSince with
    | none =>
        simp only [hd, if_true, decide_true, Event.ofOverload, Recorder.recordAll_singleton]
        rfl
    | some since =>
        simp only [hd, if_true, decide_true]
        rfl
  · cases coordinator.overloadSince with
    | none =>
        simp only [hd, decide_false]
        rfl
    | some since =>
        simp only [hd, decide_false, if_false, Event.ofOverload, Recorder.recordAll_singleton]
        rfl

theorem evaluates_of_advice? {snapshot : Snapshot} {recommendation : Recommendation}
    (h : coordinator.advice? snapshot now = some recommendation) :
    coordinator.evaluates snapshot now = true ∧ recommendation.isNoop = false := by
  obtain ⟨hc, hr⟩ := Option.ite_none_right_eq_some.mp h
  obtain rfl := Option.some.inj hr
  simpa using hc

theorem recommendation?_of_ok {snapshot : Snapshot} {recommendation : Recommendation}
    {batcher : Batcher} (ha : coordinator.advice? snapshot now = some recommendation)
    (hh : coordinator.heed recommendation = .ok batcher) :
    coordinator.recommendation? snapshot now = some recommendation := by
  rw [recommendation?, ha, Option.filter_some, hh]
  rfl

theorem recommendation?_of_error {snapshot : Snapshot} {recommendation : Recommendation}
    {overflow : Overflow} (ha : coordinator.advice? snapshot now = some recommendation)
    (hh : coordinator.heed recommendation = .error overflow) :
    coordinator.recommendation? snapshot now = none := by
  rw [recommendation?, ha, Option.filter_some, hh]
  rfl

theorem status_tune (snapshot : Snapshot) :
    (coordinator.tune snapshot now).2.status =
      { coordinator.status with
        lastTuning :=
          if coordinator.evaluates snapshot now then some now else coordinator.lastTuning
        recorder := coordinator.recorder.recordAll (coordinator.tuningReports snapshot now) } := by
  obtain ⟨ha, ht⟩ | ⟨recommendation, ha, hadvised⟩ := coordinator.tune_cases now snapshot
  · rw [ht, tuningReports, recommendation?, ha]
    rfl
  · rw [if_pos (coordinator.evaluates_of_advice? now ha).1, tuningReports]
    obtain ⟨batcher, hh, ht⟩ | ⟨overflow, hh, ht⟩ := hadvised
    · rw [ht, coordinator.recommendation?_of_ok now ha hh, status_record]
      rfl
    · rw [ht, coordinator.recommendation?_of_error now ha hh]
      rfl

theorem isOverload_overloadReports (snapshot : Snapshot) :
    ∀ event ∈ coordinator.overloadReports snapshot, event.isOverload = true :=
  Event.isOverload_ofOverload _ _ _ _ _

theorem isRecommendation_tuningReports (snapshot : Snapshot) :
    ∀ event ∈ coordinator.tuningReports snapshot now, event.isRecommendation = true := by
  intro event he
  obtain ⟨recommendation, -, rfl⟩ := List.mem_map.mp he
  rfl

theorem filter_isOverload_observeReports (snapshot : Snapshot) :
    (coordinator.observeReports snapshot now).filter Event.isOverload =
      coordinator.overloadReports snapshot := by
  rw [observeReports, List.filter_append, List.filter_eq_self.mpr, List.filter_eq_nil_iff.mpr,
    List.append_nil]
  · intro event he
    have htuning := isRecommendation_tuningReports _ now snapshot event he
    exact Bool.eq_false_iff.mp (Event.kinds_of_isRecommendation htuning).1
  · exact coordinator.isOverload_overloadReports snapshot

theorem filter_isRecommendation_observeReports (snapshot : Snapshot) :
    (coordinator.observeReports snapshot now).filter Event.isRecommendation =
      (coordinator.observeOverload snapshot).tuningReports snapshot now := by
  rw [observeReports, List.filter_append, List.filter_eq_nil_iff.mpr, List.nil_append,
    List.filter_eq_self.mpr]
  · exact isRecommendation_tuningReports _ now snapshot
  · intro event he
    have hoverload := coordinator.isOverload_overloadReports snapshot event he
    exact Bool.eq_false_iff.mp (Event.kinds_of_isOverload hoverload).1

theorem transitions_observeReports (snapshot : Snapshot) :
    (coordinator.observeReports snapshot now).filterMap Event.transition? = [] := by
  refine List.filterMap_eq_nil_iff.mpr fun event he => ?_
  rcases List.mem_append.mp he with he | he
  · exact (Event.kinds_of_isOverload (coordinator.isOverload_overloadReports _ event he)).2
  · exact (Event.kinds_of_isRecommendation (isRecommendation_tuningReports _ now _ event he)).2

theorem tuningReports_of_off (snapshot : Snapshot) (h : coordinator.config.tuning.mode = .off) :
    coordinator.tuningReports snapshot now = [] := by
  have hskip : coordinator.evaluates snapshot now = false := by
    rw [evaluates, h]
    rfl
  rw [tuningReports, recommendation?, advice?, hskip]
  rfl

theorem recommendation?_eq_some_iff {snapshot : Snapshot} {recommendation : Recommendation} :
    coordinator.recommendation? snapshot now = some recommendation ↔
      coordinator.advice? snapshot now = some recommendation ∧
        ∃ batcher, coordinator.heed recommendation = .ok batcher := by
  rw [recommendation?, Option.filter_eq_some_iff]
  refine and_congr_right fun _ => ?_
  cases coordinator.heed recommendation with
  | ok batcher => exact ⟨fun _ => ⟨batcher, rfl⟩, fun _ => rfl⟩
  | error overflow => simp [Except.isOk, Except.toBool]

theorem snapshot_dropped : (coordinator.snapshot now).dropped = coordinator.ring.dropped := rfl

theorem dropped_afterDelivery :
    (coordinator.afterDelivery now).ring.dropped = coordinator.ring.dropped := by
  have hring : (coordinator.afterDelivery now).ring = _ :=
    congrArg Channel.ring (coordinator.channel_afterDelivery now)
  rw [hring]
  rfl

-- What a frame does, all in one.
theorem status_runFrame (h : coordinator.lifecycle = .running) :
    let delivered := coordinator.afterDelivery now
    let snapshot := delivered.snapshot now
    (coordinator.runFrame now).2.status =
      { coordinator.status with
        tick := coordinator.tick.next
        frames := (coordinator.monitor.recordTick now).2.frames
        lastTick := some now
        lastDropped := coordinator.ring.dropped
        overloadSince := delivered.overloadAfter snapshot
        lastTuning :=
          if (delivered.observeOverload snapshot).evaluates snapshot now then some now
          else coordinator.lastTuning
        recorder := coordinator.recorder.recordAll (coordinator.frameReports now) } := by
  intro delivered snapshot
  have hdelivered : delivered.status = _ := coordinator.status_afterDelivery now
  have hrecorder : delivered.recorder = coordinator.recorder := congrArg Status.recorder hdelivered
  have hobserved := delivered.status_observeOverload snapshot
  have hlater : (delivered.observeOverload snapshot).recorder = _ :=
    congrArg Status.recorder hobserved
  have htuning : (delivered.observeOverload snapshot).lastTuning = _ :=
    congrArg (fun status : Status => status.lastTuning) hobserved
  have hdropped : snapshot.dropped = coordinator.ring.dropped :=
    coordinator.dropped_afterDelivery now
  rw [coordinator.runFrame_snd now h, status_tune, hobserved, hlater, htuning, hdelivered,
    hrecorder, hdropped, frameReports, observeReports, Recorder.recordAll_append]
  rfl

end Status

end Coordinator

end PacedFeed
