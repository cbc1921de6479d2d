import PacedFeed.Proofs.Pipeline.Accounts
import PacedFeed.Proofs.Pipeline.Log

-- Overloads follow one another, and each lasts for as long as frames find messages given up.

namespace PacedFeed

-- Ticks in their order, up to the present one.
structure Tick.Ascending (ticks : List Tick) (now : Tick) : Prop where
  increasing : ticks.Pairwise (·.frame < ·.frame)
  le_now : ∀ tick ∈ ticks, tick.frame ≤ now.frame

section Ascending

variable {ticks : List Tick} {now : Tick}

theorem Tick.Ascending.later (h : Ascending ticks now) : Ascending ticks now.next :=
  { h with le_now := fun tick hm => Nat.le_succ_of_le (h.le_now tick hm) }

theorem Tick.Ascending.concat (h : Ascending ticks now) :
    Ascending (ticks ++ [now.next]) now.next := by
  constructor
  · refine List.pairwise_append.mpr ⟨h.increasing, List.pairwise_singleton _ _, ?_⟩
    intro tick hm other ho
    rw [List.mem_singleton.mp ho]
    exact Nat.lt_succ_of_le (h.le_now tick hm)
  · intro tick hm
    rcases List.mem_append.mp hm with hm | hm
    · exact h.later.le_now tick hm
    · obtain rfl := List.mem_singleton.mp hm
      exact Nat.le_refl _

end Ascending

-- An overload that is over: the frame in which it was noticed, with what was measured there, and
-- the first one after it in which nothing more was lost.
structure Overload where
  began : Tick
  dropRate : Double
  utilization : Double
  ended : Tick

namespace Overload

def duration (overload : Overload) : Nat :=
  overload.ended.frame - overload.began.frame

def events (overload : Overload) : List Event :=
  [.overloadStarted overload.began overload.dropRate overload.utilization,
    .overloadCleared overload.ended overload.duration]

def bounds (overload : Overload) : List Tick :=
  [overload.began, overload.ended]

-- What is recorded of an overload that is not over.
def Opening (since : Option Tick) (events : List Event) : Prop :=
  match since with
  | none => events = []
  | some began => ∃ dropRate utilization, events = [.overloadStarted began dropRate utilization]

-- Events tell of one overload after the other, of which the last may be still going on.
structure Sequence (since : Option Tick) (now : Tick) (past : List Overload)
    (events : List Event) : Prop where
  events_eq : ∃ opening, events = past.flatMap Overload.events ++ opening ∧ Opening since opening
  ascending : Tick.Ascending (past.flatMap bounds ++ since.toList) now

theorem sequence_nil (now : Tick) : Sequence none now [] [] where
  events_eq := ⟨[], rfl, rfl⟩
  ascending := ⟨.nil, by simp⟩

section Sequence

variable {since : Option Tick} {now : Tick} {past : List Overload} {events : List Event}

theorem Sequence.began_lt (h : Sequence since now past events) :
    ∀ overload ∈ past, overload.began.frame < overload.ended.frame := by
  intro overload hm
  have hpast := (List.pairwise_append.mp h.ascending.increasing).1
  have hbounds := (List.pairwise_flatMap.mp hpast).1 overload hm
  exact List.rel_of_pairwise_cons hbounds List.mem_cons_self

-- Periods that do not overlap are together no longer than the time in which they lie.
theorem add_sum_duration_le {first last : Nat} (hle : first ≤ last)
    (hs : (past.flatMap bounds).Pairwise (·.frame < ·.frame))
    (hf : ∀ tick ∈ past.flatMap bounds, first ≤ tick.frame)
    (hl : ∀ tick ∈ past.flatMap bounds, tick.frame ≤ last) :
    first + (past.map duration).sum ≤ last := by
  induction past generalizing first with
  | nil => simpa using hle
  | cons overload past ih =>
      rw [List.flatMap_cons, bounds, List.cons_append, List.cons_append,
        List.nil_append] at hs hf hl
      obtain ⟨hbegan, hrest⟩ := List.pairwise_cons.mp hs
      obtain ⟨hended, hrest⟩ := List.pairwise_cons.mp hrest
      have hlt := hbegan overload.ended List.mem_cons_self
      have hfirst := hf overload.began List.mem_cons_self
      have hlast := hl overload.ended (List.mem_cons_of_mem _ List.mem_cons_self)
      have hsum := ih hlast hrest (fun tick hm => Nat.le_of_lt (hended tick hm))
        fun tick hm => hl tick (List.mem_cons_of_mem _ (List.mem_cons_of_mem _ hm))
      rw [List.map_cons, List.sum_cons, duration]
      omega

theorem Sequence.sum_duration_le (h : Sequence since now past events) :
    (past.map duration).sum ≤ now.frame := by
  have hsum := add_sum_duration_le (Nat.zero_le now.frame)
    (List.pairwise_append.mp h.ascending.increasing).1 (fun _ _ => Nat.zero_le _)
    fun tick hm => h.ascending.le_now tick (List.mem_append_left _ hm)
  rwa [Nat.zero_add] at hsum

theorem Sequence.begin (h : Sequence none now past events) (dropRate utilization : Double) :
    Sequence (some now.next) now.next past
      (events ++ [.overloadStarted now.next dropRate utilization]) := by
  obtain ⟨opening, rfl, rfl⟩ := h.events_eq
  have hbounds := h.ascending
  rw [Option.toList_none, List.append_nil] at hbounds
  exact ⟨⟨_, by rw [List.append_nil], dropRate, utilization, rfl⟩, hbounds.concat⟩

theorem Sequence.finish {began : Tick} (h : Sequence (some began) now past events) :
    ∃ overload,
      Sequence none now.next (past ++ [overload])
        (events ++ [.overloadCleared now.next (now.next.frame - began.frame)]) := by
  obtain ⟨opening, rfl, dropRate, utilization, rfl⟩ := h.events_eq
  let overload : Overload := ⟨began, dropRate, utilization, now.next⟩
  have hbounds : (past ++ [overload]).flatMap bounds ++ (none : Option Tick).toList =
      past.flatMap bounds ++ [began] ++ [now.next] := by
    simp [bounds, overload]
  refine ⟨overload, ⟨[], ?_, rfl⟩, ?_⟩
  · simp [Overload.events, duration, overload]
  · rw [hbounds]
    exact h.ascending.concat

theorem Sequence.same (h : Sequence since now past events) :
    Sequence since now.next past (events ++ []) := by
  rw [List.append_nil]
  exact ⟨h.events_eq, h.ascending.later⟩

-- A frame goes on with the sequence, whether or not it finds messages given up.
theorem Sequence.frame (h : Sequence since now past events) (dropRate utilization : Double)
    (dropping : Prop) [Decidable dropping] :
    let after := if dropping then some (since.getD now.next) else none
    ∃ past', Sequence after now.next past'
      (events ++ Event.ofOverload now.next dropRate utilization since after) := by
  intro after
  by_cases hd : dropping
  · have hafter : after = some (since.getD now.next) := if_pos hd
    rw [hafter]
    cases since with
    | none => exact ⟨past, h.begin dropRate utilization⟩
    | some began => exact ⟨past, h.same⟩
  · have hafter : after = none := if_neg hd
    rw [hafter]
    cases since with
    | none => exact ⟨past, h.same⟩
    | some began =>
        obtain ⟨overload, hnext⟩ := h.finish
        exact ⟨past ++ [overload], hnext⟩

end Sequence

end Overload

namespace Pipeline

-- The submissions that cost the ring a message are kept in mind until a frame notices.
def notice (state : Pipeline) (step : Step) (seen : List Submission) : List Submission :=
  if state.isFrame step then [] else seen ++ evictions (state.happen step)

-- The evictions since the last frame, or since the beginning if there was none.
def unnoticed (state : Pipeline) (steps : List Step) : List Submission :=
  track step notice state [] steps

theorem unnoticed_concat (state : Pipeline) (steps : List Step) (last : Step) :
    state.unnoticed (steps ++ [last]) =
      if (state.run steps).isFrame last then []
      else state.unnoticed steps ++ evictions ((state.run steps).happen last) :=
  track_concat _ _ _ _ _ _

section Step

variable {state : Pipeline} {step : Step}

theorem ofOverload_eq_started_iff (tick : Tick) (dropRate utilization : Double)
    (before after : Option Tick) :
    (∃ rate level, Event.ofOverload tick dropRate utilization before after =
      [.overloadStarted tick rate level]) ↔ after.isSome = true ∧ before = none := by
  cases before <;> cases after <;> simp [Event.ofOverload]

-- What a frame notices, and what it records of that.
theorem overload_of_isFrame (h : state.isFrame step = true) :
    let coordinator := state.coordinator
    let next := (state.step step).coordinator
    next.tick = coordinator.tick.next ∧ next.lastDropped = coordinator.ring.dropped ∧
    next.overloadSince =
      (if coordinator.lastDropped < coordinator.ring.dropped then
        some (coordinator.overloadSince.getD next.tick) else none) ∧
    ∃ dropRate utilization, (state.reports step).filter Event.isOverload =
      Event.ofOverload next.tick dropRate utilization coordinator.overloadSince
        next.overloadSince := by
  intro coordinator next
  have hstatus : next.status = _ := status_of_isFrame h
  have hdelivered := coordinator.status_afterDelivery state.now
  have htick : next.tick = coordinator.tick.next := tick_of_isFrame h
  have hafter : next.overloadSince = _ :=
    congrArg (fun status : Status => status.overloadSince) hstatus
  have hsince : (coordinator.afterDelivery state.now).overloadSince = coordinator.overloadSince :=
    congrArg (fun status : Status => status.overloadSince) hdelivered
  have hlast : (coordinator.afterDelivery state.now).lastDropped = coordinator.lastDropped :=
    congrArg (fun status : Status => status.lastDropped) hdelivered
  have hnow : (coordinator.afterDelivery state.now).tick = coordinator.tick.next :=
    congrArg (fun status : Status => status.tick) hdelivered
  refine ⟨htick, congrArg (fun status : Status => status.lastDropped) hstatus, ?_, ?_⟩
  · rw [hafter, Coordinator.overloadAfter, Coordinator.snapshot_dropped,
      Coordinator.dropped_afterDelivery, hlast, hsince, hnow, htick]
  · rw [(step_of_isFrame h).2, Coordinator.frameReports,
      Coordinator.filter_isOverload_observeReports, Coordinator.overloadReports, hsince, hnow,
      htick, hafter]
    exact ⟨_, _, rfl⟩

-- An overload begins, goes on or ends by whether the ring gave up messages since the last look.
theorem noted_of_isFrame (h : state.isFrame step = true) :
    let coordinator := state.coordinator
    let next := (state.step step).coordinator
    let noted := (state.reports step).filter Event.isOverload
    (next.overloadSince.isSome = true ↔ coordinator.lastDropped < coordinator.ring.dropped) ∧
    ((∃ dropRate utilization, noted = [.overloadStarted next.tick dropRate utilization]) ↔
      coordinator.lastDropped < coordinator.ring.dropped ∧ coordinator.overloadSince = none) ∧
    ∀ began, coordinator.overloadSince = some began →
      ¬coordinator.lastDropped < coordinator.ring.dropped →
        noted = [.overloadCleared next.tick (next.tick.frame - began.frame)] := by
  intro coordinator next noted
  obtain ⟨-, -, hsince, dropRate, utilization, hnoted⟩ := overload_of_isFrame h
  have hsome : next.overloadSince.isSome = true ↔
      coordinator.lastDropped < coordinator.ring.dropped := by
    rw [hsince, Option.isSome_ite]
  have hnotes : noted = _ := hnoted
  refine ⟨hsome, ?_, fun began hb hd => ?_⟩
  · rw [hnotes, ofOverload_eq_started_iff]
    exact and_congr_left fun _ => hsome
  · have hnone : next.overloadSince = none := hsince.trans (if_neg hd)
    rw [hnotes, hb, hnone]
    rfl

-- Between frames nothing is noticed.
theorem overload_of_not_frame (h : state.isFrame step = false) :
    (state.step step).coordinator.overloadSince = state.coordinator.overloadSince ∧
      (state.step step).coordinator.lastDropped = state.coordinator.lastDropped ∧
      (state.step step).coordinator.tick = state.coordinator.tick ∧
      (state.reports step).filter Event.isOverload = [] := by
  have hsame := watch_step h
  refine ⟨congrArg Watch.overloadSince hsame, congrArg Watch.lastDropped hsame,
    congrArg Watch.tick hsame, ?_⟩
  exact List.filter_eq_nil_iff.mpr fun event he =>
    Bool.eq_false_iff.mp (reports_of_not_frame h event he).1

theorem evictions_of_isFrame (h : state.isFrame step = true) :
    evictions (state.happen step) = [] := by
  obtain ⟨rfl, -⟩ := isFrame_iff.mp h
  have hframe : state.happen .tick = state.frame := if_pos h
  rw [hframe, frame, evictions_collecting]

end Step

section Run

variable {config : PipelineConfig} {start : Instant} {coordinator : Coordinator}

theorem dropped_run (hc : Coordinator.create config start = .ok coordinator)
    (steps : List Step) :
    (run ⟨coordinator, start⟩ steps).coordinator.ring.dropped =
      (evictions (history ⟨coordinator, start⟩ steps)).length := by
  have haccounted := accounted_run hc steps
  obtain ⟨gone, -, hledger⟩ := haccounted.balanced
  exact hledger.dropped.trans haccounted.evictions_eq.symm

-- What was seen at the last frame and what has come since is all that the ring gave up.
theorem unnoticed_run (hc : Coordinator.create config start = .ok coordinator)
    (steps : List Step) :
    (run ⟨coordinator, start⟩ steps).coordinator.lastDropped +
      (unnoticed ⟨coordinator, start⟩ steps).length =
        (run ⟨coordinator, start⟩ steps).coordinator.ring.dropped := by
  induction steps using List.reverseRecOn with
  | nil =>
      obtain ⟨-, rfl⟩ := Coordinator.create_eq_ok_iff.mp hc
      rfl
  | append_singleton steps last ih =>
      have hpast := dropped_run hc steps
      rw [dropped_run hc, history, trace_concat, evictions_append, List.length_append, ← history,
        ← run, ← hpast, run_concat, unnoticed_concat]
      by_cases hf : (run ⟨coordinator, start⟩ steps).isFrame last = true
      · rw [if_pos hf, evictions_of_isFrame hf, (overload_of_isFrame hf).2.1]
      · rw [if_neg hf, (overload_of_not_frame (eq_false_of_ne_true hf)).2.1, List.length_append,
          ← Nat.add_assoc, ih]

theorem sequence_run (hc : Coordinator.create config start = .ok coordinator)
    (steps : List Step) :
    let state := (run ⟨coordinator, start⟩ steps).coordinator
    ∃ past, Overload.Sequence state.overloadSince state.tick past
      ((recorded ⟨coordinator, start⟩ steps).filter PacedFeed.Event.isOverload) := by
  induction steps using List.reverseRecOn with
  | nil =>
      obtain ⟨-, rfl⟩ := Coordinator.create_eq_ok_iff.mp hc
      exact ⟨[], Overload.sequence_nil _⟩
  | append_singleton steps last ih =>
      obtain ⟨past, hsequence⟩ := ih
      dsimp only
      rw [recorded_concat, List.filter_append, run_concat]
      by_cases hf : (run ⟨coordinator, start⟩ steps).isFrame last = true
      · obtain ⟨htick, -, hsince, dropRate, utilization, hreports⟩ := overload_of_isFrame hf
        rw [hreports, hsince, htick]
        exact hsequence.frame dropRate utilization _
      · obtain ⟨hsince, -, htick, hreports⟩ := overload_of_not_frame (eq_false_of_ne_true hf)
        rw [hreports, hsince, htick, List.append_nil]
        exact ⟨past, hsequence⟩

-- Overloads are recorded one after the other. Each begins in a frame that finds messages given up
-- since the frame before and ends in the first one that does not.
theorem overloads_alternate (hc : Coordinator.create config start = .ok coordinator)
    (steps : List Step) :
    let state := run ⟨coordinator, start⟩ steps
    let events := recorded ⟨coordinator, start⟩ steps
    let since := state.coordinator.overloadSince
    let evicted := unnoticed ⟨coordinator, start⟩ steps
    state.coordinator.recorder = Recorder.empty.recordAll events ∧
    (∃ (past : List Overload) (opening : List PacedFeed.Event),
      events.filter PacedFeed.Event.isOverload = past.flatMap Overload.events ++ opening ∧
      Overload.Opening since opening ∧
      (∀ overload ∈ past, 1 ≤ overload.duration ∧
        overload.ended.frame = overload.began.frame + overload.duration) ∧
      (past.map Overload.duration).sum ≤ state.coordinator.tick.frame) ∧
    ∀ step,
      let next := (state.step step).coordinator
      let noted := (state.reports step).filter PacedFeed.Event.isOverload
      (state.isFrame step = false → next.overloadSince = since ∧ noted = []) ∧
      (state.isFrame step = true →
        (next.overloadSince.isSome = true ↔ evicted ≠ []) ∧
        ((∃ dropRate utilization, noted = [.overloadStarted next.tick dropRate utilization]) ↔
          evicted ≠ [] ∧ since = none) ∧
        ∀ began, since = some began → began.frame < next.tick.frame ∧
          (evicted = [] →
            noted = [.overloadCleared next.tick (next.tick.frame - began.frame)])) := by
  intro state events since evicted
  obtain ⟨past, hsequence⟩ := sequence_run hc steps
  obtain ⟨opening, hevents, hopening⟩ := hsequence.events_eq
  refine ⟨recorder_created steps hc,
    ⟨past, opening, hevents, hopening, ?_, hsequence.sum_duration_le⟩, ?_⟩
  · intro overload hm
    have hlt := hsequence.began_lt overload hm
    unfold Overload.duration
    omega
  · intro step next noted
    have hdropped : state.coordinator.lastDropped + evicted.length =
        state.coordinator.ring.dropped := unnoticed_run hc steps
    have hnew : state.coordinator.lastDropped < state.coordinator.ring.dropped ↔ evicted ≠ [] := by
      rw [← List.length_pos_iff]
      omega
    refine ⟨fun hf => ?_, fun hf => ?_⟩
    · obtain ⟨hsame, -, -, hnone⟩ := overload_of_not_frame hf
      exact ⟨hsame, hnone⟩
    · obtain ⟨hsome, hstarted, hcleared⟩ := noted_of_isFrame hf
      rw [hnew] at hsome hstarted
      refine ⟨hsome, hstarted, fun began hb => ⟨?_, fun he => ?_⟩⟩
      · have htick : next.tick = state.coordinator.tick.next := tick_of_isFrame hf
        rw [htick]
        refine Nat.lt_succ_of_le (hsequence.ascending.le_now began (List.mem_append_right _ ?_))
        exact Option.mem_toList.mpr hb
      · exact hcleared began hb fun hd => hnew.mp hd he

end Run

theorem overloads_alternate_burst :
    let config : PipelineConfig := { ringCapacity := 1, tuning := { mode := .off } }
    let message : String → Message := fun id => ⟨id, .tool, .control, "x", 0, []⟩
    let steps : List Step := [.start, .ingestAll 0 [message "a", message "b"]]
    let state := run ⟨.new config 0, 0⟩ steps
    let next := (state.step .tick).coordinator
    Coordinator.create config 0 = .ok (.new config 0) ∧ state.isFrame .tick = true ∧
    unnoticed ⟨.new config 0, 0⟩ steps ≠ [] ∧ next.overloadSince.isSome = true ∧
    ∃ dropRate utilization, (state.reports .tick).filter PacedFeed.Event.isOverload =
      [.overloadStarted next.tick dropRate utilization] := by
  intro config message steps state next
  obtain ⟨hf, hlength, hsince⟩ : state.isFrame .tick = true ∧
      (unnoticed ⟨.new config 0, 0⟩ steps).length = 1 ∧
      state.coordinator.overloadSince = none := by
    decide +kernel +revert
  have he : unnoticed ⟨.new config 0, 0⟩ steps ≠ [] :=
    List.length_pos_iff.mp (Nat.lt_of_lt_of_eq Nat.one_pos hlength.symm)
  have hc : Coordinator.create config 0 = .ok (.new config 0) :=
    Coordinator.create_eq_ok_iff.mpr ⟨rfl, rfl⟩
  obtain ⟨-, -, hstep⟩ := overloads_alternate hc steps
  obtain ⟨-, hframe⟩ := hstep .tick
  obtain ⟨hsome, hstarted, -⟩ := hframe hf
  exact ⟨hc, hf, he, hsome.mpr he, hstarted.mpr ⟨he, hsince⟩⟩

end Pipeline

end PacedFeed
