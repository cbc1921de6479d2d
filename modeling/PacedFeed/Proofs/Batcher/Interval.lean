import PacedFeed.Proofs.Batcher.Armed

-- What a batcher makes of an interval that it is given.

namespace PacedFeed

namespace Duration

-- The longest whole number of milliseconds that fits into a span.
structure RoundsDown (span rounded : Duration) : Prop where
  whole : ∃ count, rounded = ofMillis count
  le : rounded ≤ span
  lt : span < rounded + ofMillis 1

section RoundsDown

variable {span rounded : Duration}

theorem lt_ofMillis_iff {count : Nat} : span < ofMillis count ↔ span.millis < count := by
  rw [millis, Nat.div_lt_iff_lt_mul (by decide), Nat.mul_comm]
  rfl

theorem roundsDown_iff : span.RoundsDown rounded ↔ rounded = ofMillis span.millis := by
  constructor
  · rintro ⟨⟨count, rfl⟩, hle, hlt⟩
    rw [ofMillis, ofMillis, ← Nat.mul_add] at hlt
    rw [millis, Nat.div_eq_of_lt_le (Nat.mul_comm _ _ ▸ hle) (Nat.mul_comm _ _ ▸ hlt)]
  · rintro rfl
    refine ⟨⟨_, rfl⟩, Nat.mul_div_le _ _, ?_⟩
    rw [ofMillis, ofMillis, ← Nat.mul_add]
    exact Nat.lt_mul_div_succ span (by decide)

theorem RoundsDown.mono {longer other : Duration} (h : span.RoundsDown rounded)
    (ho : longer.RoundsDown other) (hle : span ≤ longer) : rounded ≤ other := by
  rw [roundsDown_iff.mp h, roundsDown_iff.mp ho]
  exact Nat.mul_le_mul_left _ (Nat.div_le_div_right hle)

end RoundsDown

end Duration

namespace Batcher

section SetInterval

variable (batcher : Batcher) {interval : Duration}

theorem intervalMillis_setInterval (interval : Duration) :
    (batcher.setInterval interval).config.intervalMillis =
      if interval.millis % wordLimit = 0 then batcher.config.intervalMillis
      else interval.millis % wordLimit := by
  unfold setInterval
  dsimp only
  split
  · rfl
  · rfl

-- Less than a millisecond is nothing.
theorem setInterval_of_lt (h : interval < Duration.ofMillis 1) :
    batcher.setInterval interval = batcher := by
  have hzero : interval.millis % wordLimit = 0 := by
    rw [Nat.lt_one_iff.mp (Duration.lt_ofMillis_iff.mp h), Nat.zero_mod]
  rw [setInterval, hzero]
  exact if_pos rfl

theorem roundsDown_setInterval (hone : Duration.ofMillis 1 ≤ interval)
    (hword : interval < Duration.ofMillis wordLimit) :
    interval.RoundsDown (batcher.setInterval interval).config.interval := by
  have hpos : ¬interval.millis < 1 := fun h => Nat.not_lt.mpr hone (Duration.lt_ofMillis_iff.mpr h)
  have hmod : interval.millis % wordLimit = interval.millis :=
    Nat.mod_eq_of_lt (Duration.lt_ofMillis_iff.mp hword)
  rw [Duration.roundsDown_iff, BatcherConfig.interval, intervalMillis_setInterval, hmod,
    if_neg (by omega)]

-- The setting is a word, so more milliseconds than a word counts are never kept.
theorem roundsDown_setInterval_iff (hsetting : batcher.config.intervalMillis < wordLimit)
    (hone : Duration.ofMillis 1 ≤ interval) :
    interval.RoundsDown (batcher.setInterval interval).config.interval ↔
      interval < Duration.ofMillis wordLimit := by
  refine ⟨fun h => ?_, batcher.roundsDown_setInterval hone⟩
  have hlt : (batcher.setInterval interval).config.intervalMillis < wordLimit := by
    rw [intervalMillis_setInterval]
    split
    · exact hsetting
    · exact Nat.mod_lt _ (by decide)
  have hmillis := Nat.eq_of_mul_eq_mul_left (by decide) (Duration.roundsDown_iff.mp h)
  rw [Duration.lt_ofMillis_iff, ← hmillis]
  exact hlt

end SetInterval

end Batcher

namespace Batching

def Step.setsInterval : Step → Bool
  | .setInterval _ => true
  | _ => false

theorem intervalMillis_step (state : Batching) {step : Step} (h : step.isSetting = true)
    (hs : step.setsInterval = false) :
    (state.step step).batcher.config.intervalMillis = state.batcher.config.intervalMillis := by
  cases step with
  | setMaxBatchSize size =>
      simp only [Batching.step, Batcher.setMaxBatchSize]
      split
      · rfl
      · rfl
  | setDedup => rfl
  | setInterval => cases hs
  | _ => cases h

-- An interval stays until another one is set.
theorem intervalMillis_run (state : Batching) {steps : List Step}
    (h : ∀ step ∈ steps, step.setsInterval = false) :
    (run state steps).batcher.config.intervalMillis = state.batcher.config.intervalMillis := by
  have htraffic := preservedByTraffic_of_config fun settings =>
    settings.intervalMillis = state.batcher.config.intervalMillis
  refine htraffic.run_of_settings ?_ rfl steps h
  intro state _ step hsetting hs hkept
  rwa [intervalMillis_step state hsetting hs]

-- Whatever is set, it is a word.
theorem intervalMillis_lt_run {config : BatcherConfig} {start : Instant} {batcher : Batcher}
    (hb : Batcher.create config start = .ok batcher) (hw : config.intervalMillis < wordLimit)
    (steps : List Step) :
    (run ⟨batcher, start⟩ steps).batcher.config.intervalMillis < wordLimit := by
  obtain ⟨-, rfl⟩ := Batcher.create_eq_ok_iff.mp hb
  have htraffic := preservedByTraffic_of_config fun settings => settings.intervalMillis < wordLimit
  have hall : ∀ step ∈ steps, (fun _ : Step => True) step := fun _ _ => trivial
  refine htraffic.run_of_settings ?_ hw steps hall
  intro state _ step hsetting _ h
  by_cases hs : step.setsInterval = true
  · cases step with
    | setInterval interval =>
        simp only [Batching.step, Batcher.intervalMillis_setInterval]
        split
        · exact h
        · exact Nat.mod_lt _ (by decide)
    | _ => cases hs
  · rwa [intervalMillis_step state hsetting (eq_false_of_ne_true hs)]

-- A batcher keeps an interval to the millisecond if a word counts its milliseconds, and only then.
-- Such intervals stay in order, and until another one is set no poll emits for the interval when
-- more than a millisecond of it is left.
theorem interval_kept_to_millis {config : BatcherConfig} {start : Instant} {batcher : Batcher}
    (hb : Batcher.create config start = .ok batcher) (hw : config.intervalMillis < wordLimit)
    (steps : List Step) (interval : Duration) :
    let state := run ⟨batcher, start⟩ steps
    let changed := state.step (.setInterval interval)
    (interval < Duration.ofMillis 1 → changed = state) ∧
    (Duration.ofMillis 1 ≤ interval →
      (interval.RoundsDown changed.batcher.config.interval ↔
        interval < Duration.ofMillis wordLimit)) ∧
    (∀ longer, Duration.ofMillis 1 ≤ interval → interval ≤ longer →
      longer < Duration.ofMillis wordLimit →
      changed.batcher.config.interval ≤
        (state.step (.setInterval longer)).batcher.config.interval) ∧
    (Duration.ofMillis 1 ≤ interval → interval < Duration.ofMillis wordLimit →
      ∀ later, (∀ step ∈ later, step.setsInterval = false) → ∀ now,
        let all := steps ++ .setInterval interval :: later
        let last :=
          ((batches (history ⟨batcher, start⟩ all)).getLast?.map Batch.emittedAt).getD start
        ∀ batch ∈ ((run ⟨batcher, start⟩ all).batcher.poll now).1, batch.trigger = .interval →
          interval < Instant.since now last + Duration.ofMillis 1) := by
  intro state changed
  have hsetting : state.batcher.config.intervalMillis < wordLimit :=
    intervalMillis_lt_run hb hw steps
  refine ⟨fun hlt => ?_, state.batcher.roundsDown_setInterval_iff hsetting, ?_, ?_⟩
  · exact congrArg (fun batcher => { state with batcher := batcher })
      (state.batcher.setInterval_of_lt hlt)
  · intro longer hone hle hword
    have hshort := state.batcher.roundsDown_setInterval hone (Nat.lt_of_le_of_lt hle hword)
    exact hshort.mono (state.batcher.roundsDown_setInterval (Nat.le_trans hone hle) hword) hle
  · intro hone hword later hlater now all last batch hm ht
    have hstate : run ⟨batcher, start⟩ all = run changed later := by
      rw [run, List.foldl_append]
      rfl
    have hkept : (run ⟨batcher, start⟩ all).batcher.config.interval =
        changed.batcher.config.interval := by
      rw [hstate]
      exact congrArg Duration.ofMillis (intervalMillis_run changed hlater)
    have hrounds : interval.RoundsDown changed.batcher.config.interval :=
      state.batcher.roundsDown_setInterval hone hword
    obtain ⟨hinterval, hsize⟩ := settings_pos_run hb all
    have hdue := Batcher.isDue_of_mem_poll hsize (BatcherConfig.interval_pos hinterval) hm ht
    rw [Batcher.isDue, decide_eq_true_eq, hkept, lastEmit_run hb all] at hdue
    exact Nat.lt_of_lt_of_le hrounds.lt (Nat.add_le_add_right hdue _)

theorem interval_kept_to_millis_tight :
    let message : Message := ⟨"a", .user, .chunk, "x", 0, []⟩
    let later : List Step := [.setDedup false]
    let all : List Step := [.add message] ++ .setInterval 2999999 :: later
    let last := ((batches (history ⟨.new {} 0, 0⟩ all)).getLast?.map Batch.emittedAt).getD 0
    let polled := (run ⟨.new {} 0, 0⟩ all).batcher.poll 2000000
    Batcher.create {} 0 = .ok (.new {} 0) ∧
    (∀ step ∈ later, step.setsInterval = false) ∧
    ∃ batch ∈ polled.1, batch.trigger = .interval ∧
      2999999 < Instant.since 2000000 last + Duration.ofMillis 1 := by
  intro message later all last polled
  have hb : Batcher.create {} 0 = .ok (.new {} 0) := Batcher.create_eq_ok_iff.mpr ⟨rfl, rfl⟩
  have hlater : ∀ step ∈ later, step.setsInterval = false := by simp [later, Step.setsInterval]
  obtain ⟨-, -, -, hpoll⟩ := interval_kept_to_millis hb (by decide) [.add message] 2999999
  have hbatcher : (run ⟨.new {} 0, 0⟩ all).batcher =
      (((Batcher.new {} 0).receive message).setInterval 2999999).setDedup false := rfl
  rw [Batcher.receive_new] at hbatcher
  obtain ⟨hlt, hne, hdue⟩ : (run ⟨.new {} 0, 0⟩ all).batcher.pending.size <
        (run ⟨.new {} 0, 0⟩ all).batcher.config.maxBatchSize ∧
      (run ⟨.new {} 0, 0⟩ all).batcher.pending.toList ≠ [] ∧
      (run ⟨.new {} 0, 0⟩ all).batcher.isDue 2000000 = true := by
    rw [hbatcher]
    decide +kernel
  obtain ⟨batch, hbatch, htrigger, -⟩ :=
    (Batcher.FullTurns.done _ hlt).poll_of_due rfl hne hdue
  have hm : batch ∈ polled.1 := hbatch ▸ List.mem_singleton_self batch
  exact ⟨hb, hlater, batch, hm, htrigger,
    hpoll (by decide) (by decide) later hlater 2000000 batch hm htrigger⟩

-- One millisecond more than a word counts becomes one millisecond. That is less than what becomes
-- of two, and a poll emits for it long before the time.
theorem long_interval_cut_short :
    let message : Message := ⟨"a", .user, .chunk, "x", 0, []⟩
    let long := Duration.ofMillis (wordLimit + 1)
    let state := run ⟨.new {} 0, 0⟩ [.add message]
    let changed := state.step (.setInterval long)
    Batcher.create {} 0 = .ok (.new {} 0) ∧ long < wordLimit * Duration.nanosPerSecond ∧
    Duration.ofMillis 1 ≤ long ∧ changed.batcher.config.interval = Duration.ofMillis 1 ∧
    ¬long.RoundsDown changed.batcher.config.interval ∧
    (state.step (.setInterval (Duration.ofMillis 2))).batcher.config.interval =
      Duration.ofMillis 2 ∧
    ∃ batch, (changed.batcher.poll 1000000).1 = [batch] ∧ batch.trigger = .interval := by
  intro message long state changed
  have hchanged : changed.batcher = ((Batcher.new {} 0).receive message).setInterval long := rfl
  have hstate : state.batcher = (Batcher.new {} 0).receive message := rfl
  rw [Batcher.receive_new] at hchanged hstate
  obtain ⟨hinterval, hlt, hne, hdue⟩ : changed.batcher.config.interval = Duration.ofMillis 1 ∧
      changed.batcher.pending.size < changed.batcher.config.maxBatchSize ∧
      changed.batcher.pending.toList ≠ [] ∧ changed.batcher.isDue 1000000 = true := by
    rw [hchanged]
    decide +kernel
  have htwo : (state.batcher.setInterval (Duration.ofMillis 2)).config.interval =
      Duration.ofMillis 2 := by
    rw [hstate]
    rfl
  obtain ⟨batch, hbatch, htrigger, -⟩ :=
    (Batcher.FullTurns.done _ hlt).poll_of_due rfl hne hdue
  refine ⟨Batcher.create_eq_ok_iff.mpr ⟨rfl, rfl⟩, by decide, by decide, hinterval, fun h => ?_,
    htwo, batch, hbatch, htrigger⟩
  have hlong := h.lt
  rw [hinterval] at hlong
  exact absurd hlong (by decide)

end Batching

end PacedFeed
