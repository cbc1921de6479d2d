import PacedFeed.Proofs.Coordinator.Guarded
import PacedFeed.Proofs.Pipeline.Overload

-- Runs that would stop where a condition of an operation is not met. With valid settings there is no
-- such run.

namespace PacedFeed.Pipeline

def step? (state : Pipeline) : Step → Option Pipeline
  | .stop => do
    let stopped ← state.coordinator.stopM state.now
    return { state with coordinator := stopped.2 }
  | .tick => do
    let framed ← state.coordinator.runFrameM state.now
    return { state with coordinator := framed.2 }
  | .flush => do
    let flushed ← state.coordinator.flushForM .explicit state.now
    return { state with coordinator := flushed.2 }
  | step => some (state.step step)

def run? (state : Pipeline) (steps : List Step) : Option Pipeline :=
  steps.foldlM step? state

theorem run?_concat (state : Pipeline) (steps : List Step) (last : Step) :
    state.run? (steps ++ [last]) = (state.run? steps).bind fun state => state.step? last := by
  rw [run?, List.foldlM_append, ← run?, Option.bind_eq_bind]
  refine Option.bind_congr fun state _ => ?_
  rw [List.foldlM_cons, Option.bind_eq_bind]
  exact Option.bind_fun_some _

section Step

variable {state : Pipeline}

theorem step?_eq (hb : state.coordinator.config.budget.fault? = none)
    (ht : state.coordinator.config.tuning.fault? = none)
    (ho : ∀ since, state.coordinator.overloadSince = some since →
      since.frame ≤ state.coordinator.tick.frame) (step : Step) :
    state.step? step = some (state.step step) := by
  cases step with
  | stop =>
      rw [step?, Coordinator.stopM_eq]
      rfl
  | tick =>
      rw [step?, Coordinator.runFrameM_eq hb ht ho]
      rfl
  | flush =>
      rw [step?, Coordinator.flushForM_eq]
      rfl
  | _ => rfl

end Step

section Run

variable {config : PipelineConfig} {start : Instant} {coordinator : Coordinator}
variable (hc : Coordinator.create config start = .ok coordinator) (steps : List Step)
include hc

-- An overload that is not over was noticed in a frame that was.
theorem overloadSince_le_run :
    let state := (run ⟨coordinator, start⟩ steps).coordinator
    ∀ since, state.overloadSince = some since → since.frame ≤ state.tick.frame := by
  intro state since hs
  obtain ⟨past, hsequence⟩ := sequence_run hc steps
  exact hsequence.ascending.le_now since (List.mem_append_right _ (Option.mem_toList.mpr hs))

theorem run?_eq : run? ⟨coordinator, start⟩ steps = some (run ⟨coordinator, start⟩ steps) := by
  induction steps using List.reverseRecOn with
  | nil => rfl
  | append_singleton steps last ih =>
      have hvalid := (Coordinator.create_eq_ok_iff.mp hc).1
      obtain ⟨-, -, -, hbudget, htuning⟩ := Coordinator.parts_of_valid hvalid
      have hconfig := config_run hc steps
      rw [← hconfig] at hbudget htuning
      have hlast := step?_eq hbudget htuning (overloadSince_le_run hc steps) last
      rw [run?_concat, ih, run_concat, Option.bind_some, hlast]

end Run

-- Settings are refused for the fault that validation finds. Without one a coordinator is built, and
-- then the conditions of its operations are met in every run: bounds never cross or admit zero, no
-- batch that is delivered is empty, and no overload begins after it ends.
theorem valid_settings_never_fail (config : PipelineConfig) (start : Instant) :
    (∀ fault, config.fault? = some fault →
      Coordinator.assemble config start = .error fault ∧
        Coordinator.create config start = .error fault) ∧
    (config.fault? = none → ∃ coordinator,
      Coordinator.assemble config start = .ok (some coordinator) ∧
        Coordinator.create config start = .ok coordinator ∧
        ∀ steps, run? ⟨coordinator, start⟩ steps = some (run ⟨coordinator, start⟩ steps)) := by
  constructor
  · intro fault hfault
    refine ⟨Coordinator.assemble_of_fault hfault start, ?_⟩
    rw [Coordinator.create, hfault]
  · intro hvalid
    have hc : Coordinator.create config start = .ok (.new config start) :=
      Coordinator.create_eq_ok_iff.mpr ⟨hvalid, rfl⟩
    exact ⟨_, Coordinator.assemble_of_valid hvalid start, hc, run?_eq hc⟩

-- A ring for one message, so that an overload begins and ends, and tuning that is applied.
theorem valid_settings_never_fail_burst :
    let config : PipelineConfig :=
      { ringCapacity := 1, flushOnStop := true, tuning := { mode := .apply } }
    let unusable : PipelineConfig := { targetFps := .nan }
    let message : String → Message := fun id => ⟨id, .tool, .control, "x", 0, []⟩
    let steps : List Step := [.start, .ingestAll 0 [message "a", message "b"], .tick,
      .advance (.ofMillis 16), .tick, .ingest 0 (message "c"), .stop]
    config.fault? = none ∧ Coordinator.create config 0 = .ok (.new config 0) ∧
    run? ⟨.new config 0, 0⟩ steps = some (run ⟨.new config 0, 0⟩ steps) ∧
    unusable.fault? = some (.invalidTargetFps .nan) ∧
    Coordinator.assemble unusable 0 = .error (.invalidTargetFps .nan) := by
  intro config unusable message steps
  have hvalid : config.fault? = none := by decide +kernel
  have hfault : unusable.fault? = some (.invalidTargetFps .nan) := by decide +kernel
  have hc : Coordinator.create config 0 = .ok (.new config 0) :=
    Coordinator.create_eq_ok_iff.mpr ⟨hvalid, rfl⟩
  obtain ⟨coordinator, -, hcreated, hruns⟩ := (valid_settings_never_fail config 0).2 hvalid
  obtain rfl : coordinator = .new config 0 := Except.ok.inj (hcreated.symm.trans hc)
  exact ⟨hvalid, hc, hruns steps, hfault, ((valid_settings_never_fail unusable 0).1 _ hfault).1⟩

-- Without validation a run can stop.
example :
    let config : PipelineConfig := { budget := { min := 5, max := 3 } }
    (run? ⟨.new config 0, 0⟩ [.start, .tick, .advance 1, .tick]).isNone := by
  decide +kernel

end PacedFeed.Pipeline
