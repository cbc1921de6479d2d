import PacedFeed.Config.Validation
import PacedFeed.Proofs.Double.Seconds

-- Which rates stand for a frame time, and what validation says about the others.

namespace PacedFeed.PipelineConfig

section FrameTime

variable {rate : Double} {period : Duration}

theorem frameTime?_eq_some_iff :
    frameTime? rate = some period ↔ period ≠ 0 ∧ (1 / rate).Lasts period := by
  rw [frameTime?, Option.filter_eq_some_iff, Double.toDuration?_eq_some_iff, and_comm,
    decide_eq_true_eq]

theorem frameTime?_eq_none_iff :
    frameTime? rate = none ↔ ¬∃ period ≠ 0, (1 / rate).Lasts period := by
  simp only [Option.eq_none_iff_forall_ne_some, ne_eq, frameTime?_eq_some_iff, not_exists]

-- A rate that stands for a frame time is a positive number, so to ask for that as well changes
-- nothing.
theorem hasUsableFps_eq (config : PipelineConfig) :
    config.hasUsableFps = (frameTime? config.targetFps).isSome := by
  rw [hasUsableFps]
  cases htime : frameTime? config.targetFps with
  | none => rw [Option.isSome_none, Bool.and_false]
  | some period =>
      obtain ⟨hne, hlasts⟩ := frameTime?_eq_some_iff.mp htime
      obtain ⟨hpos, hfinite, -⟩ := Double.reciprocal_of_lasts hlasts hne
      rw [hfinite, decide_eq_false (Double.not_le_of_lt hpos)]
      rfl

theorem targetFrameTime_of_frameTime {config : PipelineConfig}
    (h : frameTime? config.targetFps = some period) : config.targetFrameTime = period := by
  rw [targetFrameTime, h, Option.getD_some]

theorem targetFrameTime_of_none {config : PipelineConfig} (h : frameTime? config.targetFps = none) :
    config.targetFrameTime = Duration.ofMillis defaultFrameMillis := by
  rw [targetFrameTime, h, Option.getD_none]

-- With another rate, valid settings have no other fault than that one.
theorem fault?_withRate {config : PipelineConfig} (h : config.fault? = none) (rate : Double) :
    fault? { config with targetFps := rate } =
      if frameTime? rate = none then some (.invalidTargetFps rate) else none := by
  unfold fault? at h
  split at h
  · cases h
  · rename_i hcapacity
    split at h
    · cases h
    · split at h
      · cases h
      · rename_i hbytes
        rw [fault?, if_neg hcapacity, hasUsableFps_eq]
        cases htime : frameTime? rate with
        | none => rfl
        | some period =>
            simp only [Option.isSome_some, Bool.not_true, Bool.false_eq_true, if_false,
              if_neg hbytes, reduceCtorEq]
            exact h

end FrameTime

end PacedFeed.PipelineConfig
