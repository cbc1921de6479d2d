import PacedFeed.Config.File
import PacedFeed.Proofs.Json.Written

-- Settings that are accepted can be written and read again, and are the same.

namespace PacedFeed

open Datum Fields

namespace BatcherConfig

def counts (config : BatcherConfig) : List Nat :=
  [config.intervalMillis, config.maxBatchSize]

theorem writable_of_ofJson? {document : Json} {config : BatcherConfig}
    (h : ofJson? document = some config) : Writable config.counts [] := by
  simp only [ofJson?, Option.bind_eq_bind, Option.bind_eq_some_iff, Option.pure_def,
    Option.some.injEq] at h
  obtain ⟨fields, -, interval, hinterval, size, hsize, dedup, -, merge, -, rfl⟩ := h
  refine ⟨?_, by simp⟩
  simpa [counts] using
    ⟨word_of_orDefault (by decide) hinterval, word_of_orDefault (by decide) hsize⟩

theorem ofJson?_toJson {config : BatcherConfig} (h : Writable config.counts []) :
    ofJson? config.datum.toJson = some config := by
  have hcounts := h.lt_of_mem
  simp only [counts, List.forall_mem_cons] at hcounts
  obtain ⟨hinterval, hsize, -⟩ := hcounts
  have hn : (config.datum.fields.map Prod.fst).Nodup := by
    simp [datum, Datum.fields]
  unfold ofJson?
  refine bind_of_eq_some (fields?_group hn) ?_
  refine bind_of_eq_some (orDefault_count hn (by simp [datum, Datum.fields]) hinterval) ?_
  refine bind_of_eq_some (orDefault_count hn (by simp [datum, Datum.fields]) hsize) ?_
  refine bind_of_eq_some (orDefault_flag hn config.dedup (by simp [datum, Datum.fields])) ?_
  refine bind_of_eq_some (orDefault_flag hn config.merge (by simp [datum, Datum.fields])) ?_
  rfl

end BatcherConfig

namespace WindowConfig

def counts (config : WindowConfig) : List Nat :=
  [config.viewportSize, config.maxRetained]

theorem writable_of_ofJson? {document : Json} {config : WindowConfig}
    (h : ofJson? document = some config) : Writable config.counts [] := by
  simp only [ofJson?, Option.bind_eq_bind, Option.bind_eq_some_iff, Option.pure_def,
    Option.some.injEq] at h
  obtain ⟨fields, -, size, hsize, retained, hretained, follow, -, rfl⟩ := h
  refine ⟨?_, by simp⟩
  simpa [counts] using
    ⟨word_of_orDefault (by decide) hsize, word_of_orDefault (by decide) hretained⟩

theorem ofJson?_toJson {config : WindowConfig} (h : Writable config.counts []) :
    ofJson? config.datum.toJson = some config := by
  have hcounts := h.lt_of_mem
  simp only [counts, List.forall_mem_cons] at hcounts
  obtain ⟨hsize, hretained, -⟩ := hcounts
  have hn : (config.datum.fields.map Prod.fst).Nodup := by
    simp [datum, Datum.fields]
  unfold ofJson?
  refine bind_of_eq_some (fields?_group hn) ?_
  refine bind_of_eq_some (orDefault_count hn (by simp [datum, Datum.fields]) hsize) ?_
  refine bind_of_eq_some (orDefault_count hn (by simp [datum, Datum.fields]) hretained) ?_
  refine bind_of_eq_some (orDefault_flag hn config.followTail (by simp [datum, Datum.fields])) ?_
  rfl

end WindowConfig

namespace BudgetConfig

def counts (config : BudgetConfig) : List Nat :=
  [config.initial, config.min, config.max]

def reals (config : BudgetConfig) : List Double :=
  [config.growRatio, config.shrinkRatio, config.growFactor, config.shrinkFactor]

theorem writable_of_ofJson? {document : Json} {config : BudgetConfig}
    (h : ofJson? document = some config) : Writable config.counts config.reals := by
  simp only [ofJson?, Option.bind_eq_bind, Option.bind_eq_some_iff, Option.pure_def,
    Option.some.injEq] at h
  obtain ⟨fields, -, initial, hinitial, least, hleast, most, hmost, growRatio, hgrowRatio,
    shrinkRatio, hshrinkRatio, growFactor, hgrowFactor, shrinkFactor, hshrinkFactor, rfl⟩ := h
  constructor
  · simpa [counts] using
      ⟨word_of_orDefault (by decide) hinitial, word_of_orDefault (by decide) hleast,
        word_of_orDefault (by decide) hmost⟩
  · simpa [reals] using
      ⟨finite_of_orDefault (by decide +kernel) hgrowRatio,
        finite_of_orDefault (by decide +kernel) hshrinkRatio,
        finite_of_orDefault (by decide +kernel) hgrowFactor,
        finite_of_orDefault (by decide +kernel) hshrinkFactor⟩

theorem ofJson?_toJson {config : BudgetConfig} (h : Writable config.counts config.reals) :
    ofJson? config.datum.toJson = some config := by
  have hcounts := h.lt_of_mem
  have hreals := h.finite_of_mem
  simp only [counts, List.forall_mem_cons] at hcounts
  simp only [reals, List.forall_mem_cons] at hreals
  obtain ⟨hinitial, hleast, hmost, -⟩ := hcounts
  obtain ⟨hgrowRatio, hshrinkRatio, hgrowFactor, hshrinkFactor, -⟩ := hreals
  have hn : (config.datum.fields.map Prod.fst).Nodup := by
    simp [datum, Datum.fields]
  unfold ofJson?
  refine bind_of_eq_some (fields?_group hn) ?_
  refine bind_of_eq_some (orDefault_count hn (by simp [datum, Datum.fields]) hinitial) ?_
  refine bind_of_eq_some (orDefault_count hn (by simp [datum, Datum.fields]) hleast) ?_
  refine bind_of_eq_some (orDefault_count hn (by simp [datum, Datum.fields]) hmost) ?_
  refine bind_of_eq_some (orDefault_real hn (by simp [datum, Datum.fields]) hgrowRatio) ?_
  refine bind_of_eq_some (orDefault_real hn (by simp [datum, Datum.fields]) hshrinkRatio) ?_
  refine bind_of_eq_some (orDefault_real hn (by simp [datum, Datum.fields]) hgrowFactor) ?_
  refine bind_of_eq_some (orDefault_real hn (by simp [datum, Datum.fields]) hshrinkFactor) ?_
  rfl

end BudgetConfig

namespace TuningConfig

def counts (config : TuningConfig) : List Nat :=
  [config.evaluationMillis, config.minBatchSize, config.maxBatchSize, config.minIntervalMillis,
    config.maxIntervalMillis]

def reals (config : TuningConfig) : List Double :=
  [config.fpsThreshold, config.dropRateThreshold, config.latencyThresholdMillis]

theorem writable_of_ofJson? {document : Json} {config : TuningConfig}
    (h : ofJson? document = some config) : Writable config.counts config.reals := by
  simp only [ofJson?, Option.bind_eq_bind, Option.bind_eq_some_iff, Option.pure_def,
    Option.some.injEq] at h
  obtain ⟨fields, -, mode, -, evaluation, hevaluation, fps, hfps, rate, hrate, latency, hlatency,
    least, hleast, most, hmost, shortest, hshortest, longest, hlongest, rfl⟩ := h
  constructor
  · simpa [counts] using
      ⟨word_of_orDefault (by decide) hevaluation, word_of_orDefault (by decide) hleast,
        word_of_orDefault (by decide) hmost, word_of_orDefault (by decide) hshortest,
        word_of_orDefault (by decide) hlongest⟩
  · simpa [reals] using
      ⟨finite_of_orDefault (by decide +kernel) hfps, finite_of_orDefault (by decide +kernel) hrate,
        finite_of_orDefault (by decide +kernel) hlatency⟩

theorem ofJson?_toJson {config : TuningConfig} (h : Writable config.counts config.reals) :
    ofJson? config.datum.toJson = some config := by
  have hcounts := h.lt_of_mem
  have hreals := h.finite_of_mem
  simp only [counts, List.forall_mem_cons] at hcounts
  simp only [reals, List.forall_mem_cons] at hreals
  obtain ⟨hevaluation, hleast, hmost, hshortest, hlongest, -⟩ := hcounts
  obtain ⟨hfps, hrate, hlatency, -⟩ := hreals
  have hn : (config.datum.fields.map Prod.fst).Nodup := by
    simp [datum, Datum.fields]
  have hmode : ("mode", Datum.name config.mode.name) ∈ config.datum.fields := by
    simp [datum, Datum.fields]
  unfold ofJson?
  refine bind_of_eq_some (fields?_group hn) ?_
  have hread : Json.choice? TuningMode.name TuningMode.all (Datum.name config.mode.name).toJson =
      some config.mode :=
    Json.choice?_name (by decide) (by cases config.mode <;> decide)
  refine bind_of_eq_some (orDefault_written hn hmode hread) ?_
  refine bind_of_eq_some (orDefault_count hn (by simp [datum, Datum.fields]) hevaluation) ?_
  refine bind_of_eq_some (orDefault_real hn (by simp [datum, Datum.fields]) hfps) ?_
  refine bind_of_eq_some (orDefault_real hn (by simp [datum, Datum.fields]) hrate) ?_
  refine bind_of_eq_some (orDefault_real hn (by simp [datum, Datum.fields]) hlatency) ?_
  refine bind_of_eq_some (orDefault_count hn (by simp [datum, Datum.fields]) hleast) ?_
  refine bind_of_eq_some (orDefault_count hn (by simp [datum, Datum.fields]) hmost) ?_
  refine bind_of_eq_some (orDefault_count hn (by simp [datum, Datum.fields]) hshortest) ?_
  refine bind_of_eq_some (orDefault_count hn (by simp [datum, Datum.fields]) hlongest) ?_
  rfl

end TuningConfig

namespace PipelineConfig

def counts (config : PipelineConfig) : List Nat :=
  [config.ringCapacity, config.maxMessageBytes] ++ config.batcher.counts ++ config.window.counts ++
    config.budget.counts ++ config.tuning.counts

def reals (config : PipelineConfig) : List Double :=
  config.targetFps :: config.budget.reals ++ config.tuning.reals

theorem writable_iff {config : PipelineConfig} :
    Writable config.counts config.reals ↔
      Writable [config.ringCapacity, config.maxMessageBytes] [config.targetFps] ∧
        Writable config.batcher.counts [] ∧ Writable config.window.counts [] ∧
        Writable config.budget.counts config.budget.reals ∧
        Writable config.tuning.counts config.tuning.reals := by
  simp only [counts, reals, writable_iff_forall, List.forall_mem_append, List.forall_mem_cons]
  tauto

theorem writable_of_ofJson? {document : Json} {config : PipelineConfig}
    (h : ofJson? document = some config) : Writable config.counts config.reals := by
  simp only [ofJson?, Option.bind_eq_bind, Option.bind_eq_some_iff, Option.pure_def,
    Option.some.injEq] at h
  obtain ⟨fields, -, capacity, hcapacity, fps, hfps, flush, -, bytes, hbytes, batcher, hbatcher,
    window, hwindow, budget, hbudget, tuning, htuning, rfl⟩ := h
  refine writable_iff.mpr ⟨⟨?_, ?_⟩, ?_, ?_, ?_, ?_⟩
  · simpa using ⟨word_of_orDefault (by decide) hcapacity, word_of_orDefault (by decide) hbytes⟩
  · simpa using finite_of_orDefault (by decide +kernel) hfps
  · exact of_orDefault (P := fun batcher => Writable batcher.counts [])
      ⟨by decide, by decide⟩ BatcherConfig.writable_of_ofJson? hbatcher
  · exact of_orDefault (P := fun window => Writable window.counts [])
      ⟨by decide, by decide⟩ WindowConfig.writable_of_ofJson? hwindow
  · exact of_orDefault (P := fun budget => Writable budget.counts budget.reals)
      ⟨by decide, by decide +kernel⟩ BudgetConfig.writable_of_ofJson? hbudget
  · exact of_orDefault (P := fun tuning => Writable tuning.counts tuning.reals)
      ⟨by decide, by decide +kernel⟩ TuningConfig.writable_of_ofJson? htuning

theorem ofJson?_toJson {config : PipelineConfig} (h : Writable config.counts config.reals) :
    ofJson? config.datum.toJson = some config := by
  obtain ⟨hown, hbatcher, hwindow, hbudget, htuning⟩ := writable_iff.mp h
  have hcounts := hown.lt_of_mem
  have hreals := hown.finite_of_mem
  simp only [List.forall_mem_cons] at hcounts hreals
  obtain ⟨hcapacity, hbytes, -⟩ := hcounts
  obtain ⟨hfps, -⟩ := hreals
  have hn : (config.datum.fields.map Prod.fst).Nodup := by
    simp [datum, Datum.fields]
  have hm : ("batcher", config.batcher.datum) ∈ config.datum.fields ∧
      ("window", config.window.datum) ∈ config.datum.fields ∧
      ("budget", config.budget.datum) ∈ config.datum.fields ∧
      ("tuning", config.tuning.datum) ∈ config.datum.fields := by
    simp [datum, Datum.fields]
  obtain ⟨hmbatcher, hmwindow, hmbudget, hmtuning⟩ := hm
  unfold ofJson?
  refine bind_of_eq_some (fields?_group hn) ?_
  refine bind_of_eq_some (orDefault_count hn (by simp [datum, Datum.fields]) hcapacity) ?_
  refine bind_of_eq_some (orDefault_real hn (by simp [datum, Datum.fields]) hfps) ?_
  refine bind_of_eq_some (orDefault_flag hn config.flushOnStop (by simp [datum, Datum.fields])) ?_
  refine bind_of_eq_some (orDefault_count hn (by simp [datum, Datum.fields]) hbytes) ?_
  refine bind_of_eq_some
    (orDefault_written hn hmbatcher (BatcherConfig.ofJson?_toJson hbatcher)) ?_
  refine bind_of_eq_some (orDefault_written hn hmwindow (WindowConfig.ofJson?_toJson hwindow)) ?_
  refine bind_of_eq_some (orDefault_written hn hmbudget (BudgetConfig.ofJson?_toJson hbudget)) ?_
  refine bind_of_eq_some (orDefault_written hn hmtuning (TuningConfig.ofJson?_toJson htuning)) ?_
  rfl

theorem ofText_eq_ok_iff {text : String} {config : PipelineConfig} :
    ofText text = .ok config ↔
      (Json.parse? text).bind ofJson? = some config ∧ config.fault? = none := by
  unfold ofText
  constructor
  · intro h
    split at h
    · cases h
    · rename_i read hread
      split at h
      · cases h
      · rename_i hfault
        cases h
        exact ⟨hread, hfault⟩
  · rintro ⟨hread, hfault⟩
    simp only [hread, hfault]

-- Settings that were accepted are accepted again in their written form, as the same settings.
-- No number is lost on the way: each of them was a word or a finite double when it was read.
theorem written_settings_read_back {text : String} {config : PipelineConfig}
    (h : ofText text = .ok config) :
    ofText config.render = .ok config ∧ (∀ value ∈ config.reals, value.isFinite = true) ∧
      ∀ n ∈ config.counts, n < wordLimit := by
  obtain ⟨hread, hfault⟩ := ofText_eq_ok_iff.mp h
  obtain ⟨document, -, hdocument⟩ := Option.bind_eq_some_iff.mp hread
  have hw : Writable config.counts config.reals := writable_of_ofJson? hdocument
  refine ⟨ofText_eq_ok_iff.mpr ⟨?_, hfault⟩, hw.finite_of_mem, hw.lt_of_mem⟩
  rw [render, Datum.parse?_render, Option.bind_some]
  exact ofJson?_toJson hw

-- A window as an array, a word that no double holds, a zero with a sign and a mode by name.
theorem written_settings_read_back_signed_zero :
    let text := "\x7b\"ring_capacity\":18446744073709551615,\"window\":[20,500,true]," ++
      "\"budget\":\x7b\"shrink_ratio\":-0.0\x7d,\"tuning\":\x7b\"mode\":\"Apply\"\x7d\x7d"
    let config : PipelineConfig := {
      ringCapacity := 18446744073709551615
      window := { viewportSize := 20, maxRetained := 500, followTail := true }
      budget := { shrinkRatio := .finite true 0 (by decide) }
      tuning := { mode := .apply } }
    ofText text = .ok config ∧ ofText config.render = .ok config := by
  intro text config
  have hread : ofText text = .ok config := by decide +kernel
  exact ⟨hread, (written_settings_read_back hread).1⟩

end PipelineConfig

end PacedFeed
