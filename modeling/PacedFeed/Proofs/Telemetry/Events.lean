import PacedFeed.Proofs.Json.Written
import PacedFeed.Telemetry.Event

-- Events that are written out are read back as the same events.

namespace PacedFeed

open Datum Fields

theorem Tick.ofJson?_toJson {tick : Tick} (h : tick.frame < wordLimit) :
    Tick.ofJson? tick.datum.toJson = some tick := by
  have hn : (tick.datum.fields.map Prod.fst).Nodup := by
    simp [datum, Datum.fields]
  have hframe : ("frame", .count tick.frame) ∈ tick.datum.fields := by
    simp [datum, Datum.fields]
  unfold ofJson?
  refine bind_of_eq_some (fields?_group hn) ?_
  refine bind_of_eq_some (required_written hn hframe (Json.word?_ofNat h)) ?_
  rfl

theorem Adjustment.choice?_name (adjustment : Adjustment) :
    Json.choice? Adjustment.name Adjustment.all (Datum.name adjustment.name).toJson =
      some adjustment :=
  Json.choice?_name (by decide) (by cases adjustment <;> decide)

theorem Recommendation.ofJson?_toJson (recommendation : Recommendation) :
    Recommendation.ofJson? recommendation.datum.toJson = some recommendation := by
  have hn : (recommendation.datum.fields.map Prod.fst).Nodup := by
    simp [datum, Datum.fields]
  have hm : ("batch_size", Datum.name recommendation.batchSize.name) ∈
        recommendation.datum.fields ∧
      ("batch_interval", .name recommendation.batchInterval.name) ∈ recommendation.datum.fields ∧
      ("grow_buffer", .flag recommendation.growBuffer) ∈ recommendation.datum.fields ∧
      ("aggressive_dedup", .flag recommendation.aggressiveDedup) ∈ recommendation.datum.fields ∧
      ("enable_compression", .flag recommendation.enableCompression) ∈
        recommendation.datum.fields := by
    simp [datum, Datum.fields]
  obtain ⟨hsize, hinterval, hbuffer, hdedup, hcompression⟩ := hm
  unfold ofJson?
  refine bind_of_eq_some (fields?_group hn) ?_
  refine bind_of_eq_some
    (required_written hn hsize recommendation.batchSize.choice?_name) ?_
  refine bind_of_eq_some
    (required_written hn hinterval recommendation.batchInterval.choice?_name) ?_
  refine bind_of_eq_some (required_written hn hbuffer rfl) ?_
  refine bind_of_eq_some (required_written hn hdedup rfl) ?_
  refine bind_of_eq_some (required_written hn hcompression rfl) ?_
  rfl

namespace Event

def counts : Event → List Nat
  | .stateTransition _ _ tick => [tick.frame]
  | .overloadStarted tick _ _ => [tick.frame]
  | .overloadCleared tick durationTicks => [tick.frame, durationTicks]
  | .tuningRecommended tick _ _ => [tick.frame]
  | .flushed _ messages => [messages]

def reals : Event → List Double
  | .overloadStarted _ dropRate utilization => [dropRate, utilization]
  | _ => []

-- The kind of an event and what is said about it.
theorem ofJson?_group (kind : String) (body : Datum) :
    ofJson? (Datum.group [(kind, body)]).toJson = ofMember? kind body.toJson := rfl

section Kinds

variable {tick : Tick} (h : tick.frame < wordLimit)
include h

theorem ofJson?_stateTransition (source target : Lifecycle) :
    ofJson? (stateTransition source target tick).datum.toJson =
      some (.stateTransition source target tick) := by
  let body : List (String × Datum) :=
    [("from", .name source.name), ("to", .name target.name), ("tick", tick.datum)]
  have hn : (body.map Prod.fst).Nodup := by simp [body]
  have hm : ("from", Datum.name source.name) ∈ body ∧ ("to", .name target.name) ∈ body ∧
      ("tick", tick.datum) ∈ body := by
    simp [body]
  obtain ⟨hsource, htarget, htick⟩ := hm
  have hstate (state : Lifecycle) :
      Json.choice? Lifecycle.name Lifecycle.all (Datum.name state.name).toJson = some state :=
    Json.choice?_name (by decide) state.mem_all
  rw [datum, ofJson?_group, ofMember?]
  refine bind_of_eq_some (fields?_group hn) ?_
  refine bind_of_eq_some (required_written hn hsource (hstate source)) ?_
  refine bind_of_eq_some (required_written hn htarget (hstate target)) ?_
  refine bind_of_eq_some (required_written hn htick (Tick.ofJson?_toJson h)) ?_
  rfl

theorem ofJson?_overloadStarted {dropRate utilization : Double} (hd : dropRate.isFinite = true)
    (hu : utilization.isFinite = true) :
    ofJson? (overloadStarted tick dropRate utilization).datum.toJson =
      some (.overloadStarted tick dropRate utilization) := by
  let body : List (String × Datum) :=
    [("tick", tick.datum), ("drop_rate", .real dropRate),
      ("utilization_percent", .real utilization)]
  have hn : (body.map Prod.fst).Nodup := by simp [body]
  have hm : ("tick", tick.datum) ∈ body ∧ ("drop_rate", .real dropRate) ∈ body ∧
      ("utilization_percent", .real utilization) ∈ body := by
    simp [body]
  obtain ⟨htick, hrate, hused⟩ := hm
  rw [datum, ofJson?_group, ofMember?]
  refine bind_of_eq_some (fields?_group hn) ?_
  refine bind_of_eq_some (required_written hn htick (Tick.ofJson?_toJson h)) ?_
  refine bind_of_eq_some (required_written hn hrate (Json.double?_ofDouble hd)) ?_
  refine bind_of_eq_some (required_written hn hused (Json.double?_ofDouble hu)) ?_
  rfl

theorem ofJson?_overloadCleared {durationTicks : Nat} (hd : durationTicks < wordLimit) :
    ofJson? (overloadCleared tick durationTicks).datum.toJson =
      some (.overloadCleared tick durationTicks) := by
  let body : List (String × Datum) :=
    [("tick", tick.datum), ("duration_ticks", .count durationTicks)]
  have hn : (body.map Prod.fst).Nodup := by simp [body]
  have hm : ("tick", tick.datum) ∈ body ∧ ("duration_ticks", .count durationTicks) ∈ body := by
    simp [body]
  obtain ⟨htick, hduration⟩ := hm
  rw [datum, ofJson?_group, ofMember?]
  refine bind_of_eq_some (fields?_group hn) ?_
  refine bind_of_eq_some (required_written hn htick (Tick.ofJson?_toJson h)) ?_
  refine bind_of_eq_some (required_written hn hduration (Json.word?_ofNat hd)) ?_
  rfl

theorem ofJson?_tuningRecommended (recommendation : Recommendation) (applied : Bool) :
    ofJson? (tuningRecommended tick recommendation applied).datum.toJson =
      some (.tuningRecommended tick recommendation applied) := by
  let body : List (String × Datum) :=
    [("tick", tick.datum), ("recommendation", recommendation.datum), ("applied", .flag applied)]
  have hn : (body.map Prod.fst).Nodup := by simp [body]
  have hm : ("tick", tick.datum) ∈ body ∧ ("recommendation", recommendation.datum) ∈ body ∧
      ("applied", .flag applied) ∈ body := by
    simp [body]
  obtain ⟨htick, hrecommendation, happlied⟩ := hm
  rw [datum, ofJson?_group, ofMember?]
  refine bind_of_eq_some (fields?_group hn) ?_
  refine bind_of_eq_some (required_written hn htick (Tick.ofJson?_toJson h)) ?_
  refine bind_of_eq_some
    (required_written hn hrecommendation recommendation.ofJson?_toJson) ?_
  refine bind_of_eq_some (required_written hn happlied rfl) ?_
  rfl

end Kinds

theorem ofJson?_flushed (reason : FlushReason) {messages : Nat} (h : messages < wordLimit) :
    ofJson? (flushed reason messages).datum.toJson = some (.flushed reason messages) := by
  let body : List (String × Datum) :=
    [("reason", .name reason.name), ("messages", .count messages)]
  have hn : (body.map Prod.fst).Nodup := by simp [body]
  have hm : ("reason", Datum.name reason.name) ∈ body ∧ ("messages", .count messages) ∈ body := by
    simp [body]
  obtain ⟨hreason, hmessages⟩ := hm
  have hread : Json.choice? FlushReason.name FlushReason.all (Datum.name reason.name).toJson =
      some reason :=
    Json.choice?_name (by decide) (by cases reason <;> decide)
  rw [datum, ofJson?_group, ofMember?]
  refine bind_of_eq_some (fields?_group hn) ?_
  refine bind_of_eq_some (required_written hn hreason hread) ?_
  refine bind_of_eq_some (required_written hn hmessages (Json.word?_ofNat h)) ?_
  rfl

theorem ofJson?_toJson {event : Event} (h : Writable event.counts event.reals) :
    ofJson? event.datum.toJson = some event := by
  have hcounts := h.lt_of_mem
  have hreals := h.finite_of_mem
  cases event with
  | stateTransition source target tick =>
      simp only [counts, List.forall_mem_singleton] at hcounts
      exact ofJson?_stateTransition hcounts source target
  | overloadStarted tick dropRate utilization =>
      simp only [counts, List.forall_mem_singleton] at hcounts
      simp only [reals, List.forall_mem_cons] at hreals
      exact ofJson?_overloadStarted hcounts hreals.1 hreals.2.1
  | overloadCleared tick durationTicks =>
      simp only [counts, List.forall_mem_cons] at hcounts
      exact ofJson?_overloadCleared hcounts.1 hcounts.2.1
  | tuningRecommended tick recommendation applied =>
      simp only [counts, List.forall_mem_singleton] at hcounts
      exact ofJson?_tuningRecommended hcounts recommendation applied
  | flushed reason messages =>
      simp only [counts, List.forall_mem_singleton] at hcounts
      exact ofJson?_flushed reason hcounts

-- What is written of an event is read as the event.
theorem ofText?_render {event : Event} (h : Writable event.counts event.reals) :
    ofText? event.render = some event := by
  rw [ofText?, render, Datum.parse?_render, Option.bind_some]
  exact ofJson?_toJson h

-- Events that are written one by one are read one by one.
theorem mapM_ofText?_render {events : List Event}
    (h : ∀ event ∈ events, Writable event.counts event.reals) :
    (events.map render).mapM ofText? = some events := by
  induction events with
  | nil => rfl
  | cons event events ih =>
      obtain ⟨hevent, hevents⟩ := List.forall_mem_cons.mp h
      rw [List.map_cons, List.mapM_cons, ofText?_render hevent, ih hevents]
      rfl

-- So no two events are written alike.
theorem eq_of_render_eq {first second : Event} (hf : Writable first.counts first.reals)
    (hs : Writable second.counts second.reals) (h : first.render = second.render) :
    first = second := by
  have hread := ofText?_render hf
  rw [h, ofText?_render hs] at hread
  exact (Option.some.inj hread).symm

end Event

end PacedFeed
