import PacedFeed.Proofs.Config.RoundTrip
import PacedFeed.Proofs.Json.Meaning

-- Settings that are given in part, in any order and among others, take the place of defaults.

namespace PacedFeed

-- One setting of a structure: its name, what is said of its value, how this is read, and where the
-- value is kept.
structure Setting (σ : Type) where
  Value : Type
  name : String
  means : Json → Value → Prop
  read : Json → Option Value
  read_eq_some_iff : ∀ {given value}, read given = some value ↔ means given value
  get : σ → Value

section Settings

variable {σ : Type}

namespace Setting

def word (name : String) (get : σ → Nat) : Setting σ :=
  ⟨Nat, name, Json.MeansWord, Json.word?, Json.word?_eq_some_iff, get⟩

def real (name : String) (get : σ → Double) : Setting σ :=
  ⟨Double, name, Json.MeansReal, Json.double?, Json.double?_eq_some_iff, get⟩

def flag (name : String) (get : σ → Bool) : Setting σ :=
  ⟨Bool, name, Json.MeansFlag, Json.flag?, Json.flag?_eq_some_iff, get⟩

-- The value that is found for a setting, if it can be read.
def find (setting : Setting σ) (default : σ) (found : Fields) : Option setting.Value :=
  found.orDefault setting.name setting.read (setting.get default)

end Setting

def namesOf (settings : List (Setting σ)) : List String :=
  settings.map Setting.name

-- No setting is given twice, and each that is given has a value of its type.
structure Accepted (settings : List (Setting σ)) (members : List (String × Json)) : Prop where
  once : KnownOnce (namesOf settings) members
  readable : ∀ setting ∈ settings, ∀ given, (setting.name, given) ∈ members →
    ∃ value, setting.means given value

-- The settings that are given are as it is said of them, and the others are as they were.
structure Overrides (settings : List (Setting σ)) (default : σ) (members : List (String × Json))
    (config : σ) : Prop where
  given : ∀ setting ∈ settings, ∀ given, (setting.name, given) ∈ members →
    setting.means given (setting.get config)
  missing : ∀ setting ∈ settings, (∀ given, (setting.name, given) ∉ members) →
    setting.get config = setting.get default

-- What a document says of a whole structure, by the settings that it gives.
def MeansAll (settings : List (Setting σ)) (default : σ) (document : Json) (config : σ) : Prop :=
  ∃ members, document.Gives (namesOf settings) members ∧ KnownOnce (namesOf settings) members ∧
    Overrides settings default members config

-- An object is read if its settings are accepted, and then as the one structure that has them in
-- place of the defaults.
def FillsDefaults (settings : List (Setting σ)) (default : σ) (ofJson? : Json → Option σ) : Prop :=
  ∀ members,
    (Accepted settings members → ∃ config, ofJson? (.ofMembers members) = some config ∧
      ∀ other, Overrides settings default members other ↔ other = config) ∧
    (¬Accepted settings members → ofJson? (.ofMembers members) = none)

-- A structure that is read setting by setting, and holds what was read of each.
structure ReadBy (settings : List (Setting σ)) (default : σ) (ofJson? : Json → Option σ) :
    Prop where
  distinct : (namesOf settings).Nodup
  eq_some_iff : ∀ {document config}, ofJson? document = some config ↔
    ∃ found, document.fields? (namesOf settings) = some found ∧
      ∀ setting ∈ settings, setting.find default found = some (setting.get config)
  exists_of_found : ∀ {found},
    (∀ setting ∈ settings, ∃ value, setting.find default found = some value) →
    ∃ config, ∀ setting ∈ settings, setting.find default found = some (setting.get config)

section ReadBy

variable {settings : List (Setting σ)} {default config : σ} {ofJson? : Json → Option σ}
variable {members other : List (String × Json)}

theorem Overrides.accepted (h : Overrides settings default members config)
    (ho : KnownOnce (namesOf settings) members) : Accepted settings members :=
  ⟨ho, fun setting hs given hg => ⟨_, h.given setting hs given hg⟩⟩

theorem find_known_iff (ho : KnownOnce (namesOf settings) members) {setting : Setting σ}
    (hs : setting ∈ settings) {value : setting.Value} :
    setting.find default (.known (namesOf settings) members) = some value ↔
      (∀ given, (setting.name, given) ∈ members → setting.means given value) ∧
        ((∀ given, (setting.name, given) ∉ members) → value = setting.get default) := by
  simp only [← setting.read_eq_some_iff]
  exact orDefault_known_iff ho (List.mem_map_of_mem hs)

theorem find_known_iff_overrides (ho : KnownOnce (namesOf settings) members) :
    (∀ setting ∈ settings, setting.find default (.known (namesOf settings) members) =
      some (setting.get config)) ↔ Overrides settings default members config := by
  constructor
  · intro h
    have hvalues := fun setting hs => (find_known_iff ho hs).mp (h setting hs)
    exact ⟨fun setting hs => (hvalues setting hs).1, fun setting hs => (hvalues setting hs).2⟩
  · intro h setting hs
    exact (find_known_iff ho hs).mpr ⟨h.given setting hs, h.missing setting hs⟩

-- Only what is said of the settings matters.
theorem Overrides.congr
    (hmeans : ∀ setting ∈ settings, ∀ value,
      (∀ given, (setting.name, given) ∈ members → setting.means given value) →
        ∀ given, (setting.name, given) ∈ other → setting.means given value)
    (hgiven : ∀ setting ∈ settings, (∃ given, (setting.name, given) ∈ members) →
      ∃ given, (setting.name, given) ∈ other)
    (h : Overrides settings default members config) :
    Overrides settings default other config := by
  refine ⟨fun setting hs => hmeans setting hs _ (h.given setting hs), fun setting hs hnone => ?_⟩
  refine h.missing setting hs fun given hm => ?_
  obtain ⟨found, hfound⟩ := hgiven setting hs ⟨given, hm⟩
  exact hnone found hfound

variable (h : ReadBy settings default ofJson?)
include h

theorem ReadBy.meansAll_iff {document : Json} :
    ofJson? document = some config ↔ MeansAll settings default document config := by
  simp only [h.eq_some_iff, fields?_eq_some_iff h.distinct]
  constructor
  · rintro ⟨_, ⟨members, hgives, ho, rfl⟩, hfind⟩
    exact ⟨members, hgives, ho, (find_known_iff_overrides ho).mp hfind⟩
  · rintro ⟨members, hgives, ho, hover⟩
    exact ⟨_, ⟨members, hgives, ho, rfl⟩, (find_known_iff_overrides ho).mpr hover⟩

theorem ReadBy.ofMembers_eq_some_iff :
    ofJson? (.ofMembers members) = some config ↔
      KnownOnce (namesOf settings) members ∧ Overrides settings default members config := by
  rw [h.eq_some_iff, fields?_ofMembers]
  constructor
  · rintro ⟨found, hfound, hfind⟩
    split at hfound
    · rename_i ho
      cases hfound
      exact ⟨ho, (find_known_iff_overrides ho).mp hfind⟩
    · cases hfound
  · rintro ⟨ho, hover⟩
    exact ⟨_, if_pos ho, (find_known_iff_overrides ho).mpr hover⟩

theorem ReadBy.exists_of_accepted (ha : Accepted settings members) :
    ∃ config, ofJson? (.ofMembers members) = some config ∧
      Overrides settings default members config := by
  have hread : ∀ setting ∈ settings,
      ∃ value, setting.find default (.known (namesOf settings) members) = some value :=
    fun setting hs => exists_orDefault_known ha.once (List.mem_map_of_mem hs) fun given hg =>
      (ha.readable setting hs given hg).imp fun _ => setting.read_eq_some_iff.mpr
  obtain ⟨config, hconfig⟩ := h.exists_of_found hread
  have hover := (find_known_iff_overrides ha.once).mp hconfig
  exact ⟨config, h.ofMembers_eq_some_iff.mpr ⟨ha.once, hover⟩, hover⟩

theorem ReadBy.eq_none_of_not_accepted (ha : ¬Accepted settings members) :
    ofJson? (.ofMembers members) = none := by
  rw [Option.eq_none_iff_forall_ne_some]
  intro config hc
  obtain ⟨ho, hover⟩ := h.ofMembers_eq_some_iff.mp hc
  exact ha (hover.accepted ho)

-- The order of the members and those of unknown names have no part in it.
theorem ReadBy.ofMembers_of_rearranged {alike : String → Json → Json → Prop}
    (halike : ∀ setting ∈ settings, ∀ {found given}, alike setting.name found given →
      ∀ {value}, setting.means given value ↔ setting.means found value)
    (hr : Rearranged (namesOf settings) alike members other) :
    ofJson? (.ofMembers other) = ofJson? (.ofMembers members) := by
  refine Option.ext fun config => ?_
  rw [h.ofMembers_eq_some_iff, h.ofMembers_eq_some_iff]
  refine and_congr hr.knownOnce_iff.symm ?_
  have hfound := fun setting hs =>
    hr.exists_alike (List.mem_map_of_mem (f := Setting.name) (a := setting) hs)
  constructor
  · refine Overrides.congr (fun setting hs value hmeans found hm => ?_) fun setting hs => ?_
    · obtain ⟨given, hg, ha⟩ := (hfound setting hs).1 found hm
      exact (halike setting hs ha).mp (hmeans given hg)
    · rintro ⟨given, hg⟩
      obtain ⟨found, hm, -⟩ := (hfound setting hs).2 given hg
      exact ⟨found, hm⟩
  · refine Overrides.congr (fun setting hs value hmeans given hg => ?_) fun setting hs => ?_
    · obtain ⟨found, hm, ha⟩ := (hfound setting hs).2 given hg
      exact (halike setting hs ha).mpr (hmeans found hm)
    · rintro ⟨found, hm⟩
      obtain ⟨given, hg, -⟩ := (hfound setting hs).1 found hm
      exact ⟨given, hg⟩

theorem ReadBy.ofMembers_of_same (hr : Rearranged (namesOf settings) (fun _ => Eq) members other) :
    ofJson? (.ofMembers other) = ofJson? (.ofMembers members) := by
  refine h.ofMembers_of_rearranged (fun setting _ found given he _ => ?_) hr
  rw [he]

theorem ReadBy.fillsDefaults : FillsDefaults settings default ofJson? := by
  intro members
  refine ⟨fun ha => ?_, h.eq_none_of_not_accepted⟩
  obtain ⟨config, hread, -⟩ := h.exists_of_accepted ha
  refine ⟨config, hread, fun other => ⟨fun ho => ?_, ?_⟩⟩
  · have hother := h.ofMembers_eq_some_iff.mpr ⟨ha.once, ho⟩
    exact Option.some.inj (hother.symm.trans hread)
  · rintro rfl
    exact (h.ofMembers_eq_some_iff.mp hread).2

end ReadBy

-- A setting that is a structure of its own.
def Setting.group {τ : Type} (name : String) {settings : List (Setting τ)} {default : τ}
    {ofJson? : Json → Option τ} (h : ReadBy settings default ofJson?) (get : σ → τ) : Setting σ :=
  ⟨τ, name, MeansAll settings default, ofJson?, h.meansAll_iff, get⟩

end Settings

namespace BatcherConfig

def knownSettings : List (Setting BatcherConfig) := [
  .word "interval_ms" intervalMillis,
  .word "max_batch_size" maxBatchSize,
  .flag "dedup" dedup,
  .flag "merge" merge]

theorem readBy : ReadBy knownSettings {} ofJson? := by
  refine ⟨by decide, ?_, ?_⟩
  · intro document config
    unfold knownSettings
    simp only [ofJson?, Option.bind_eq_bind, Option.bind_eq_some_iff, Option.pure_def,
      Option.some.injEq, List.forall_mem_cons]
    constructor
    · rintro ⟨found, hfound, interval, hinterval, size, hsize, dedup, hdedup, merge, hmerge, rfl⟩
      exact ⟨found, hfound, hinterval, hsize, hdedup, hmerge, List.forall_mem_nil _⟩
    · rintro ⟨found, hfound, hinterval, hsize, hdedup, hmerge, -⟩
      exact ⟨found, hfound, _, hinterval, _, hsize, _, hdedup, _, hmerge, rfl⟩
  · intro found h
    simp only [knownSettings, List.forall_mem_cons] at h ⊢
    obtain ⟨⟨interval, hinterval⟩, ⟨size, hsize⟩, ⟨dedup, hdedup⟩, ⟨merge, hmerge⟩, -⟩ := h
    exact ⟨⟨interval, size, dedup, merge⟩, hinterval, hsize, hdedup, hmerge, List.forall_mem_nil _⟩

end BatcherConfig

namespace WindowConfig

def knownSettings : List (Setting WindowConfig) := [
  .word "viewport_size" viewportSize,
  .word "max_retained" maxRetained,
  .flag "follow_tail" followTail]

theorem readBy : ReadBy knownSettings {} ofJson? := by
  refine ⟨by decide, ?_, ?_⟩
  · intro document config
    unfold knownSettings
    simp only [ofJson?, Option.bind_eq_bind, Option.bind_eq_some_iff, Option.pure_def,
      Option.some.injEq, List.forall_mem_cons]
    constructor
    · rintro ⟨found, hfound, size, hsize, retained, hretained, follow, hfollow, rfl⟩
      exact ⟨found, hfound, hsize, hretained, hfollow, List.forall_mem_nil _⟩
    · rintro ⟨found, hfound, hsize, hretained, hfollow, -⟩
      exact ⟨found, hfound, _, hsize, _, hretained, _, hfollow, rfl⟩
  · intro found h
    simp only [knownSettings, List.forall_mem_cons] at h ⊢
    obtain ⟨⟨size, hsize⟩, ⟨retained, hretained⟩, ⟨follow, hfollow⟩, -⟩ := h
    exact ⟨⟨size, retained, follow⟩, hsize, hretained, hfollow, List.forall_mem_nil _⟩

end WindowConfig

namespace BudgetConfig

def knownSettings : List (Setting BudgetConfig) := [
  .word "initial" initial,
  .word "min" min,
  .word "max" max,
  .real "grow_ratio" growRatio,
  .real "shrink_ratio" shrinkRatio,
  .real "grow_factor" growFactor,
  .real "shrink_factor" shrinkFactor]

theorem readBy : ReadBy knownSettings {} ofJson? := by
  refine ⟨by decide, ?_, ?_⟩
  · intro document config
    unfold knownSettings
    simp only [ofJson?, Option.bind_eq_bind, Option.bind_eq_some_iff, Option.pure_def,
      Option.some.injEq, List.forall_mem_cons]
    constructor
    · rintro ⟨found, hfound, initial, hinitial, least, hleast, most, hmost, growRatio, hgrowRatio,
        shrinkRatio, hshrinkRatio, growFactor, hgrowFactor, shrinkFactor, hshrinkFactor, rfl⟩
      exact ⟨found, hfound, hinitial, hleast, hmost, hgrowRatio, hshrinkRatio, hgrowFactor,
        hshrinkFactor, List.forall_mem_nil _⟩
    · rintro ⟨found, hfound, hinitial, hleast, hmost, hgrowRatio, hshrinkRatio, hgrowFactor,
        hshrinkFactor, -⟩
      exact ⟨found, hfound, _, hinitial, _, hleast, _, hmost, _, hgrowRatio, _, hshrinkRatio, _,
        hgrowFactor, _, hshrinkFactor, rfl⟩
  · intro found h
    simp only [knownSettings, List.forall_mem_cons] at h ⊢
    obtain ⟨⟨initial, hinitial⟩, ⟨least, hleast⟩, ⟨most, hmost⟩, ⟨growRatio, hgrowRatio⟩,
      ⟨shrinkRatio, hshrinkRatio⟩, ⟨growFactor, hgrowFactor⟩, ⟨shrinkFactor, hshrinkFactor⟩, -⟩ := h
    exact ⟨⟨initial, least, most, growRatio, shrinkRatio, growFactor, shrinkFactor⟩, hinitial,
      hleast, hmost, hgrowRatio, hshrinkRatio, hgrowFactor, hshrinkFactor, List.forall_mem_nil _⟩

end BudgetConfig

namespace TuningConfig

def knownSettings : List (Setting TuningConfig) := [
  ⟨TuningMode, "mode",
    Json.MeansChoice [("Off", .off), ("Advisory", .advisory), ("Apply", .apply)],
    Json.choice? TuningMode.name TuningMode.all, Json.choice?_eq_some_iff (by decide), mode⟩,
  .word "evaluation_interval_ms" evaluationMillis,
  .real "fps_threshold" fpsThreshold,
  .real "drop_rate_threshold" dropRateThreshold,
  .real "latency_threshold_ms" latencyThresholdMillis,
  .word "min_batch_size" minBatchSize,
  .word "max_batch_size" maxBatchSize,
  .word "min_interval_ms" minIntervalMillis,
  .word "max_interval_ms" maxIntervalMillis]

theorem readBy : ReadBy knownSettings {} ofJson? := by
  refine ⟨by decide, ?_, ?_⟩
  · intro document config
    unfold knownSettings
    simp only [ofJson?, Option.bind_eq_bind, Option.bind_eq_some_iff, Option.pure_def,
      Option.some.injEq, List.forall_mem_cons]
    constructor
    · rintro ⟨found, hfound, mode, hmode, evaluation, hevaluation, fps, hfps, rate, hrate, latency,
        hlatency, least, hleast, most, hmost, shortest, hshortest, longest, hlongest, rfl⟩
      exact ⟨found, hfound, hmode, hevaluation, hfps, hrate, hlatency, hleast, hmost, hshortest,
        hlongest, List.forall_mem_nil _⟩
    · rintro ⟨found, hfound, hmode, hevaluation, hfps, hrate, hlatency, hleast, hmost, hshortest,
        hlongest, -⟩
      exact ⟨found, hfound, _, hmode, _, hevaluation, _, hfps, _, hrate, _, hlatency, _, hleast, _,
        hmost, _, hshortest, _, hlongest, rfl⟩
  · intro found h
    simp only [knownSettings, List.forall_mem_cons] at h ⊢
    obtain ⟨⟨mode, hmode⟩, ⟨evaluation, hevaluation⟩, ⟨fps, hfps⟩, ⟨rate, hrate⟩,
      ⟨latency, hlatency⟩, ⟨least, hleast⟩, ⟨most, hmost⟩, ⟨shortest, hshortest⟩,
      ⟨longest, hlongest⟩, -⟩ := h
    exact ⟨⟨mode, evaluation, fps, rate, latency, least, most, shortest, longest⟩, hmode,
      hevaluation, hfps, hrate, hlatency, hleast, hmost, hshortest, hlongest, List.forall_mem_nil _⟩

end TuningConfig

namespace PipelineConfig

def knownSettings : List (Setting PipelineConfig) := [
  .word "ring_capacity" ringCapacity,
  .real "target_fps" targetFps,
  .flag "flush_on_stop" flushOnStop,
  .word "max_message_bytes" maxMessageBytes,
  .group "batcher" BatcherConfig.readBy batcher,
  .group "window" WindowConfig.readBy window,
  .group "budget" BudgetConfig.readBy budget,
  .group "tuning" TuningConfig.readBy tuning]

theorem readBy : ReadBy knownSettings {} ofJson? := by
  refine ⟨by decide, ?_, ?_⟩
  · intro document config
    unfold knownSettings
    simp only [ofJson?, Option.bind_eq_bind, Option.bind_eq_some_iff, Option.pure_def,
      Option.some.injEq, List.forall_mem_cons]
    constructor
    · rintro ⟨found, hfound, capacity, hcapacity, fps, hfps, flush, hflush, bytes, hbytes, batcher,
        hbatcher, window, hwindow, budget, hbudget, tuning, htuning, rfl⟩
      exact ⟨found, hfound, hcapacity, hfps, hflush, hbytes, hbatcher, hwindow, hbudget, htuning,
        List.forall_mem_nil _⟩
    · rintro ⟨found, hfound, hcapacity, hfps, hflush, hbytes, hbatcher, hwindow, hbudget, htuning,
        -⟩
      exact ⟨found, hfound, _, hcapacity, _, hfps, _, hflush, _, hbytes, _, hbatcher, _, hwindow, _,
        hbudget, _, htuning, rfl⟩
  · intro found h
    simp only [knownSettings, List.forall_mem_cons] at h ⊢
    obtain ⟨⟨capacity, hcapacity⟩, ⟨fps, hfps⟩, ⟨flush, hflush⟩, ⟨bytes, hbytes⟩,
      ⟨batcher, hbatcher⟩, ⟨window, hwindow⟩, ⟨budget, hbudget⟩, ⟨tuning, htuning⟩, -⟩ := h
    exact ⟨⟨capacity, fps, flush, bytes, batcher, window, budget, tuning⟩, hcapacity, hfps, hflush,
      hbytes, hbatcher, hwindow, hbudget, htuning, List.forall_mem_nil _⟩

-- The settings that are structures of their own, with the names that are known in each.
def nested : List (String × List String) := [
  ("batcher", namesOf BatcherConfig.knownSettings),
  ("window", namesOf WindowConfig.knownSettings),
  ("budget", namesOf BudgetConfig.knownSettings),
  ("tuning", namesOf TuningConfig.knownSettings)]

-- Values that differ at most in the order of the members of a structure, and in what is unknown
-- there.
def Alike (name : String) (value other : Json) : Prop :=
  value = other ∨ ∃ names inner inner', (name, names) ∈ nested ∧
    Rearranged names (fun _ => Eq) inner inner' ∧ value = .ofMembers inner ∧
    other = .ofMembers inner'

theorem means_of_alike {setting : Setting PipelineConfig} (hs : setting ∈ knownSettings)
    {found given : Json} (h : Alike setting.name found given) {value : setting.Value} :
    setting.means given value ↔ setting.means found value := by
  rw [← setting.read_eq_some_iff, ← setting.read_eq_some_iff]
  rcases h with rfl | ⟨names, inner, inner', hn, hr, rfl, rfl⟩
  · rfl
  · simp only [knownSettings, List.mem_cons, List.not_mem_nil, or_false] at hs
    rcases hs with rfl | rfl | rfl | rfl | rfl | rfl | rfl | rfl
    all_goals simp [nested, Setting.word, Setting.real, Setting.flag, Setting.group] at hn
    all_goals subst hn
    · exact Eq.congr_left (BatcherConfig.readBy.ofMembers_of_same hr)
    · exact Eq.congr_left (WindowConfig.readBy.ofMembers_of_same hr)
    · exact Eq.congr_left (BudgetConfig.readBy.ofMembers_of_same hr)
    · exact Eq.congr_left (TuningConfig.readBy.ofMembers_of_same hr)

theorem ofText_of_parse {text : String} {document : Json} (h : Json.parse? text = some document) :
    ofText text = match ofJson? document with
      | none => .error .malformed
      | some config =>
        match config.fault? with
        | some fault => .error fault
        | none => .ok config := by
  rw [ofText, h]
  rfl

-- Settings that are given in part are read if each known one is given once, with a value of its type,
-- and then the others are the defaults of their own structure. The order of the members has no part
-- in it, nor have those of unknown names. All other objects are refused as a whole.
theorem partial_settings_override_defaults :
    FillsDefaults BatcherConfig.knownSettings {} BatcherConfig.ofJson? ∧
    FillsDefaults WindowConfig.knownSettings {} WindowConfig.ofJson? ∧
    FillsDefaults BudgetConfig.knownSettings {} BudgetConfig.ofJson? ∧
    FillsDefaults TuningConfig.knownSettings {} TuningConfig.ofJson? ∧
    FillsDefaults knownSettings {} ofJson? ∧
    (∀ members other, Rearranged (namesOf knownSettings) Alike members other →
      ofJson? (.ofMembers other) = ofJson? (.ofMembers members)) ∧
    ∀ text members, Json.parse? text = some (.ofMembers members) →
      (Accepted knownSettings members → ∃ config, Overrides knownSettings {} members config ∧
        ofText text = match config.fault? with
          | some fault => .error fault
          | none => .ok config) ∧
      (¬Accepted knownSettings members → ofText text = .error .malformed) := by
  refine ⟨BatcherConfig.readBy.fillsDefaults, WindowConfig.readBy.fillsDefaults,
    BudgetConfig.readBy.fillsDefaults, TuningConfig.readBy.fillsDefaults, readBy.fillsDefaults,
    fun members other hr => ?_, fun text members hp => ?_⟩
  · exact readBy.ofMembers_of_rearranged (fun setting hs _ _ h => means_of_alike hs h) hr
  · have htext := ofText_of_parse hp
    constructor
    · intro ha
      obtain ⟨config, hread, hover⟩ := readBy.exists_of_accepted ha
      rw [hread] at htext
      exact ⟨config, hover, htext⟩
    · intro ha
      rw [readBy.eq_none_of_not_accepted ha] at htext
      exact htext

-- The same settings with members in reverse and two more that nothing knows.
theorem partial_settings_override_defaults_reversed :
    let capacity : String × Json := ("ring_capacity", .ofNat 1024)
    let rate : String × Json := ("target_fps", .number ⟨false, ['2', '9'], ['9', '7'], none⟩)
    let flush : String × Json := ("flush_on_stop", .bool true)
    let size : String × Json := ("max_batch_size", .ofNat 50)
    let dedup : String × Json := ("dedup", .bool false)
    let mode : String × Json := ("tuning", .ofMembers [("mode", .string (some "Apply"))])
    let unknown : String × Json := ("title", .array [.null])
    let members := [capacity, rate, flush, ("batcher", .ofMembers [size, dedup]), mode]
    let other :=
      [unknown, mode, ("batcher", .ofMembers [unknown, dedup, size]), flush, rate, capacity]
    let config : PipelineConfig :=
      { ringCapacity := 1024, targetFps := 29.97, flushOnStop := true
        batcher := { maxBatchSize := 50, dedup := false }, tuning := { mode := .apply } }
    Accepted knownSettings members ∧ Rearranged (namesOf knownSettings) Alike members other ∧
      Overrides knownSettings {} members config ∧ ofJson? (.ofMembers other) = some config ∧
      ofText (Json.ofMembers members).render = .ok config := by
  intro capacity rate flush size dedup mode unknown members other config
  obtain ⟨-, -, -, -, hfills, hrearranged, htext⟩ := partial_settings_override_defaults
  have hread : ofJson? (.ofMembers members) = some config := by decide +kernel
  have ha : Accepted knownSettings members := by
    by_contra hn
    have hnone := (hfills members).2 hn
    rw [hread] at hnone
    cases hnone
  have hinner : Rearranged (namesOf BatcherConfig.knownSettings) (fun _ => Eq) [size, dedup]
      [unknown, dedup, size] :=
    ⟨[size, dedup], [unknown], .cons ⟨rfl, rfl⟩ (.cons ⟨rfl, rfl⟩ .nil), by decide,
      List.reverse_perm [size, dedup, unknown]⟩
  have halike : Alike "batcher" (.ofMembers [size, dedup]) (.ofMembers [unknown, dedup, size]) :=
    .inr ⟨_, _, _, List.mem_cons_self, hinner, rfl, rfl⟩
  have hr : Rearranged (namesOf knownSettings) Alike members other := by
    let kept := [capacity, rate, flush, ("batcher", .ofMembers [unknown, dedup, size]), mode]
    refine ⟨kept, [unknown], ?_, by decide, List.reverse_perm (kept ++ [unknown])⟩
    have hsame : ∀ member : String × Json, member.1 = member.1 ∧ Alike member.1 member.2 member.2 :=
      fun _ => ⟨rfl, .inl rfl⟩
    exact .cons (hsame capacity) (.cons (hsame rate) (.cons (hsame flush)
      (.cons ⟨rfl, halike⟩ (.cons (hsame mode) .nil))))
  obtain ⟨found, hfound, hover⟩ := (hfills members).1 ha
  obtain rfl : found = config := Option.some.inj (hfound.symm.trans hread)
  have hparse : Json.parse? (Json.ofMembers members).render = some (.ofMembers members) := by
    have hrate : rate.2.WellFormed :=
      Json.wellFormed_of_tokens_eq rfl ⟨rfl, by simp, by simp⟩
    refine Json.parse?_render (Json.wellFormed_ofMembers ?_)
    simp only [members, List.forall_mem_cons]
    exact ⟨(Datum.count 1024).wellFormed_toJson, hrate, (Datum.flag true).wellFormed_toJson,
      (Datum.group [("max_batch_size", .count 50), ("dedup", .flag false)]).wellFormed_toJson,
      (Datum.group [("mode", .name "Apply")]).wellFormed_toJson, List.forall_mem_nil _⟩
  obtain ⟨found, hfound', hvalid⟩ := (htext _ members hparse).1 ha
  obtain rfl : found = config := (hover found).mp hfound'
  exact ⟨ha, hr, hfound', (hrearranged _ _ hr).trans hread, hvalid⟩

end PipelineConfig

end PacedFeed
