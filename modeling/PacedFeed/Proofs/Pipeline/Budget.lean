import PacedFeed.Proofs.Config.RoundTrip
import PacedFeed.Proofs.Coordinator.Budget
import PacedFeed.Proofs.Pipeline.Accounts
import PacedFeed.Proofs.Pipeline.Feed
import PacedFeed.Proofs.Pipeline.Log

-- The budget along a run. It stays inside the bounds, every frame takes as much as it says, and
-- frames that keep being too slow, or fast enough, take it to a bound.

namespace PacedFeed

-- A valid configuration in words starts out with a budget inside the bounds.
theorem PipelineConfig.budget_of_words {config : PipelineConfig} (hv : config.fault? = none)
    (hw : ∀ n ∈ config.counts, n < wordLimit) :
    config.budget.fault? = none ∧ config.budget.max < wordLimit := by
  obtain ⟨-, -, -, hbudget, -⟩ := Coordinator.parts_of_valid hv
  refine ⟨hbudget, hw _ ?_⟩
  simp [counts, BudgetConfig.counts]

namespace Pipeline

-- The coordinator at the beginning of a frame, when it has counted the time since the last one.
def frameStart (state : Pipeline) (step : Step) : List Coordinator :=
  if state.isFrame step then [state.coordinator.beginFrame state.now] else []

def frameStarts (state : Pipeline) (steps : List Step) : List Coordinator :=
  trace step frameStart state steps

section Step

variable {state : Pipeline} {step : Step}

theorem budget_ingestAll (coordinator : Coordinator) (messages : List Message) :
    (coordinator.ingestAll messages).2.budget = coordinator.budget :=
  ingestAll_keeps Coordinator.budget Coordinator.budget_ingest coordinator messages

theorem budget_of_not_frame (h : state.isFrame step = false) :
    (state.step step).coordinator.budget = state.coordinator.budget := by
  cases step with
  | ingest producer message => exact state.coordinator.budget_ingest message
  | ingestAll producer messages => exact budget_ingestAll _ messages
  | start => exact state.coordinator.budget_start
  | stop => exact state.coordinator.budget_stop state.now
  | tick => rw [step_tick h]
  | flush => exact state.coordinator.budget_flushFor state.now .explicit
  | advance | scrollTo | scrollToBottom | setFollowTail => rfl

theorem budget_of_isFrame (h : state.isFrame step = true) :
    (state.step step).coordinator.budget = (state.coordinator.beginFrame state.now).budget := by
  rw [(step_of_isFrame h).1]
  exact state.coordinator.budget_runFrame state.now (isFrame_iff.mp h).2

theorem budget_tick (h : state.isRunning = true) :
    (state.step .tick).coordinator.budget =
      (state.coordinator.beginFrame state.now).budgetAfter state.coordinator.budget := by
  have hf : state.isFrame .tick = true := h
  exact budget_of_isFrame hf

theorem budget_step (state : Pipeline) (step : Step) :
    (state.step step).coordinator.budget =
      (state.frameStart step).foldl (fun budget frame => frame.budgetAfter budget)
        state.coordinator.budget := by
  by_cases hf : state.isFrame step = true
  · rw [budget_of_isFrame hf, frameStart, if_pos hf]
    exact state.coordinator.budget_beginFrame state.now
  · rw [budget_of_not_frame (eq_false_of_ne_true hf), frameStart, if_neg hf]
    rfl

theorem config_frameStart :
    ∀ frame ∈ state.frameStart step, frame.config = state.coordinator.config := by
  intro frame hf
  unfold frameStart at hf
  split at hf
  · rw [List.mem_singleton.mp hf]
    exact state.coordinator.config_beginFrame state.now
  · cases hf

end Step

theorem frameStarts_concat (state : Pipeline) (steps : List Step) (last : Step) :
    state.frameStarts (steps ++ [last]) =
      state.frameStarts steps ++ (state.run steps).frameStart last :=
  trace_concat _ _ _ _ _

-- The budget follows the frames of a run, one after the other.
theorem budget_run (state : Pipeline) (steps : List Step) :
    (state.run steps).coordinator.budget =
      (state.frameStarts steps).foldl (fun budget frame => frame.budgetAfter budget)
        state.coordinator.budget :=
  view_foldl (fun budget frame => Coordinator.budgetAfter frame budget) step frameStart
    (fun state => state.coordinator.budget) budget_step state steps

section Run

variable {config : PipelineConfig} {start : Instant} {coordinator : Coordinator}
variable (hc : Coordinator.create config start = .ok coordinator)
include hc

theorem config_frameStarts (before steps : List Step) :
    ∀ frame ∈ (run ⟨coordinator, start⟩ before).frameStarts steps,
      frame.config.budget = config.budget := by
  induction steps using List.reverseRecOn with
  | nil =>
      intro frame hf
      cases hf
  | append_singleton steps last ih =>
      have hconfig := config_run hc (before ++ steps)
      rw [run_append] at hconfig
      intro frame hf
      rw [frameStarts_concat] at hf
      rcases List.mem_append.mp hf with hf | hf
      · exact ih frame hf
      · rw [config_frameStart frame hf, hconfig]

theorem config_begun (before : List Step) :
    let state := run ⟨coordinator, start⟩ before
    (state.coordinator.beginFrame state.now).config.budget = config.budget := by
  intro state
  rw [Coordinator.config_beginFrame, config_run hc]

theorem admits_run (steps : List Step) :
    config.budget.Admits (run ⟨coordinator, start⟩ steps).coordinator.budget := by
  have hconfig := config_frameStarts hc [] steps
  obtain ⟨hvalid, rfl⟩ := Coordinator.create_eq_ok_iff.mp hc
  obtain ⟨-, -, -, hbudget, -⟩ := Coordinator.parts_of_valid hvalid
  rw [budget_run]
  refine List.foldlRecOn (motive := config.budget.Admits) _ _ ?_ fun budget h frame hf => ?_
  · obtain ⟨-, hle⟩ := BudgetConfig.bounds_of_valid hbudget
    constructor <;> dsimp only [Coordinator.new, clamp] <;> omega
  · exact Coordinator.admits_budgetAfter (hconfig frame hf) hbudget h

end Run

-- As long as the frames are fast enough, the budget grows, up to the upper bound. There it stays.
theorem budget_grows {config : PipelineConfig} {start : Instant} {coordinator : Coordinator}
    (hc : Coordinator.create config start = .ok coordinator)
    (hw : ∀ n ∈ config.counts, n < wordLimit) (hf : 1 < config.budget.growFactor)
    (before : List Step) :
    let state := run ⟨coordinator, start⟩ before
    let budget := state.coordinator.budget
    let most := config.budget.max
    (state.isRunning = true → (state.coordinator.beginFrame state.now).Healthy → budget < most →
      budget < (state.step .tick).coordinator.budget) ∧
    ∀ steps, (∀ frame ∈ state.frameStarts steps, frame.Healthy) →
      most - budget ≤ (state.frameStarts steps).length →
        (state.run steps).coordinator.budget = most := by
  intro state budget most
  obtain ⟨hvalid, hmost⟩ :=
    PipelineConfig.budget_of_words (Coordinator.create_eq_ok_iff.mp hc).1 hw
  have hadmits : config.budget.Admits budget := admits_run hc before
  refine ⟨fun hr hhealthy hlt => ?_, fun steps hhealthy hlength => ?_⟩
  · have hnext : (state.step .tick).coordinator.budget = _ := budget_tick hr
    rw [hnext]
    exact hhealthy.lt_budgetAfter (config_begun hc before) hvalid hadmits hmost hf hlt
  · rw [budget_run]
    exact Coordinator.foldl_budgetAfter_of_healthy hvalid hmost (config_frameStarts hc before steps)
      hadmits hhealthy hf hlength

theorem budget_grows_from_one :
    let config : PipelineConfig := { budget := { initial := 1, min := 1, max := 3 } }
    let before : List Step := [.start, .tick]
    let steps : List Step := [.advance 16000000, .tick, .advance 16000000, .tick]
    let state := run ⟨.new config 0, 0⟩ before
    Coordinator.create config 0 = .ok (.new config 0) ∧ 1 < config.budget.growFactor ∧
    (∀ frame ∈ state.frameStarts steps, frame.Healthy) ∧
    (state.frameStarts steps).length = 2 ∧ (state.run steps).coordinator.budget = 3 := by
  intro config before steps state
  have hf : 1 < config.budget.growFactor := by decide +kernel +revert
  obtain ⟨hhealthy, hlength, hbudget⟩ : (∀ frame ∈ state.frameStarts steps, frame.Healthy) ∧
      (state.frameStarts steps).length = 2 ∧ state.coordinator.budget = 1 := by
    decide +kernel +revert
  have hc : Coordinator.create config 0 = .ok (.new config 0) :=
    Coordinator.create_eq_ok_iff.mpr ⟨rfl, rfl⟩
  have hcount : config.budget.max - state.coordinator.budget ≤
      (state.frameStarts steps).length := by
    rw [hlength, hbudget]
    decide
  have hstate : run ⟨.new config 0, 0⟩ before = state := rfl
  obtain ⟨-, hruns⟩ := budget_grows hc (by decide) hf before
  rw [hstate] at hruns
  exact ⟨hc, hf, hhealthy, hlength, hruns steps hhealthy hcount⟩

-- As long as the frames are too slow, the budget shrinks, down to the lower bound. Only a budget
-- that is stuck does not: one that the factor takes no more than a half off. A whole one is enough
-- for it to move.
theorem budget_shrinks {config : PipelineConfig} {start : Instant} {coordinator : Coordinator}
    (hc : Coordinator.create config start = .ok coordinator)
    (hw : ∀ n ∈ config.counts, n < wordLimit) (hs : config.budget.shrinkFactor < 1)
    (before : List Step) :
    let state := run ⟨coordinator, start⟩ before
    let budget := state.coordinator.budget
    let least := config.budget.min
    let share := 1 - config.budget.shrinkFactor.value
    (state.isRunning = true → (state.coordinator.beginFrame state.now).Degraded → least < budget →
      ((state.step .tick).coordinator.budget < budget ↔ ¬config.budget.Stuck budget)) ∧
    (1 ≤ budget * share → ¬config.budget.Stuck budget) ∧
    (budget * share ≤ 1 / 2 → config.budget.Stuck budget) ∧
    ∀ steps, (∀ frame ∈ state.frameStarts steps, frame.Degraded) →
      budget - least ≤ (state.frameStarts steps).length →
        let last := (state.run steps).coordinator.budget
        (last = least ∨ config.budget.Stuck last) ∧ (1 ≤ (least + 1) * share → last = least) := by
  intro state budget least share
  obtain ⟨hvalid, hmost⟩ :=
    PipelineConfig.budget_of_words (Coordinator.create_eq_ok_iff.mp hc).1 hw
  have hadmits : config.budget.Admits budget := admits_run hc before
  have hpos : 0 < budget := by
    obtain ⟨hleast, -⟩ := BudgetConfig.bounds_of_valid hvalid
    exact hleast.trans_le hadmits.min_le
  have hbudget : budget < wordLimit := hadmits.le_max.trans_lt hmost
  refine ⟨fun hr hdegraded hlt => ?_, BudgetConfig.not_stuck_of_one_le hvalid hs hpos hbudget,
    BudgetConfig.stuck_of_le_half hvalid hs hpos hbudget, fun steps hdegraded hlength => ?_⟩
  · have hnext : (state.step .tick).coordinator.budget = _ := budget_tick hr
    rw [hnext]
    exact hdegraded.budgetAfter_lt_iff (config_begun hc before) hvalid hadmits hmost hs hlt
  · have hreached := admits_run hc (before ++ steps)
    rw [run_append] at hreached
    have hend := Coordinator.foldl_budgetAfter_of_degraded hvalid hmost
      (config_frameStarts hc before steps) hadmits hdegraded hs hlength
    have hlast : (state.run steps).coordinator.budget = _ := budget_run state steps
    rw [← hlast] at hend
    exact ⟨hend, fun hone =>
      hend.elim id (BudgetConfig.eq_min_of_stuck hvalid hs hreached hmost hone)⟩

theorem budget_shrinks_to_one :
    let config : PipelineConfig := { budget := { initial := 3, min := 1, shrinkFactor := 0.5 } }
    let before : List Step := [.start, .tick]
    let steps : List Step := [.advance 100000000, .tick, .advance 100000000, .tick]
    let state := run ⟨.new config 0, 0⟩ before
    Coordinator.create config 0 = .ok (.new config 0) ∧ config.budget.shrinkFactor < 1 ∧
    (∀ frame ∈ state.frameStarts steps, frame.Degraded) ∧
    (state.frameStarts steps).length = 2 ∧ (state.run steps).coordinator.budget = 1 := by
  intro config before steps state
  have hs : config.budget.shrinkFactor < 1 := by decide +kernel +revert
  obtain ⟨hdegraded, hlength, hbudget⟩ : (∀ frame ∈ state.frameStarts steps, frame.Degraded) ∧
      (state.frameStarts steps).length = 2 ∧ state.coordinator.budget = 3 := by
    decide +kernel +revert
  have hc : Coordinator.create config 0 = .ok (.new config 0) :=
    Coordinator.create_eq_ok_iff.mpr ⟨by decide +kernel, rfl⟩
  have hcount : state.coordinator.budget - config.budget.min ≤
      (state.frameStarts steps).length := by
    rw [hlength, hbudget]
    decide
  have hhalf : config.budget.shrinkFactor.value = 1 / 2 := by decide +kernel
  have hwhole : 1 ≤ (config.budget.min + 1 : ℚ) * (1 - config.budget.shrinkFactor.value) := by
    rw [hhalf]
    norm_num [config]
  have hstate : run ⟨.new config 0, 0⟩ before = state := rfl
  obtain ⟨-, -, -, hruns⟩ := budget_shrinks hc (by decide) hs before
  rw [hstate] at hruns
  obtain ⟨-, hreached⟩ := hruns steps hdegraded hcount
  exact ⟨hc, hs, hdegraded, hlength, hreached hwhole⟩

-- A fifth of a budget of two is less than a half, so it stays, however slow the frames are.
theorem budget_of_two_stays :
    let config : PipelineConfig := { budget := { initial := 2, min := 1, shrinkFactor := 0.8 } }
    let state := run ⟨.new config 0, 0⟩ [.start, .tick, .advance 100000000]
    Coordinator.create config 0 = .ok (.new config 0) ∧ config.budget.shrinkFactor < 1 ∧
    state.isRunning = true ∧ (state.coordinator.beginFrame state.now).Degraded ∧
    config.budget.min < state.coordinator.budget ∧
    (state.step .tick).coordinator.budget = state.coordinator.budget := by
  intro config state
  refine ⟨Coordinator.create_eq_ok_iff.mpr ⟨by decide +kernel, rfl⟩, ?_⟩
  decide +kernel +revert

end Pipeline

end PacedFeed
