import PacedFeed.Json.Fields
import PacedFeed.Lifecycle
import PacedFeed.Telemetry.Tuner

namespace PacedFeed

inductive FlushReason where
  | explicit
  | stop
  deriving DecidableEq, Inhabited

namespace FlushReason

def name : FlushReason → String
  | .explicit => "Explicit"
  | .stop => "Stop"

def all : List FlushReason := [.explicit, .stop]

end FlushReason

-- What is worth remembering about a run: ticks, counts and rates, never what messages say.
inductive Event where
  | stateTransition (source target : Lifecycle) (tick : Tick)
  | overloadStarted (tick : Tick) (dropRate utilization : Double)
  | overloadCleared (tick : Tick) (durationTicks : Nat)
  | tuningRecommended (tick : Tick) (recommendation : Recommendation) (applied : Bool)
  | flushed (reason : FlushReason) (messages : Nat)
  deriving DecidableEq

def Tick.datum (tick : Tick) : Datum :=
  .group [("frame", .count tick.frame)]

def Tick.ofJson? (document : Json) : Option Tick := do
  let fields ← document.fields? ["frame"]
  return ⟨← fields.required "frame" Json.word?⟩

namespace Recommendation

def datum (recommendation : Recommendation) : Datum :=
  .group [
    ("batch_size", .name recommendation.batchSize.name),
    ("batch_interval", .name recommendation.batchInterval.name),
    ("grow_buffer", .flag recommendation.growBuffer),
    ("aggressive_dedup", .flag recommendation.aggressiveDedup),
    ("enable_compression", .flag recommendation.enableCompression)]

def ofJson? (document : Json) : Option Recommendation := do
  let adjustment? := Json.choice? Adjustment.name Adjustment.all
  let fields ← document.fields?
    ["batch_size", "batch_interval", "grow_buffer", "aggressive_dedup", "enable_compression"]
  return {
    batchSize := ← fields.required "batch_size" adjustment?
    batchInterval := ← fields.required "batch_interval" adjustment?
    growBuffer := ← fields.required "grow_buffer" Json.flag?
    aggressiveDedup := ← fields.required "aggressive_dedup" Json.flag?
    enableCompression := ← fields.required "enable_compression" Json.flag? }

end Recommendation

namespace Event

-- An object with one member, named for the kind of event.
def datum : Event → Datum
  | .stateTransition source target tick =>
    .group [("StateTransition", .group [
      ("from", .name source.name), ("to", .name target.name), ("tick", tick.datum)])]
  | .overloadStarted tick dropRate utilization =>
    .group [("OverloadStarted", .group [
      ("tick", tick.datum), ("drop_rate", .real dropRate),
      ("utilization_percent", .real utilization)])]
  | .overloadCleared tick durationTicks =>
    .group [("OverloadCleared", .group [
      ("tick", tick.datum), ("duration_ticks", .count durationTicks)])]
  | .tuningRecommended tick recommendation applied =>
    .group [("TuningRecommended", .group [
      ("tick", tick.datum), ("recommendation", recommendation.datum),
      ("applied", .flag applied)])]
  | .flushed reason messages =>
    .group [("Flushed", .group [
      ("reason", .name reason.name), ("messages", .count messages)])]

def ofMember? (kind : String) (body : Json) : Option Event :=
  let lifecycle? := Json.choice? Lifecycle.name Lifecycle.all
  match kind with
  | "StateTransition" => do
    let fields ← body.fields? ["from", "to", "tick"]
    return .stateTransition (← fields.required "from" lifecycle?)
      (← fields.required "to" lifecycle?) (← fields.required "tick" Tick.ofJson?)
  | "OverloadStarted" => do
    let fields ← body.fields? ["tick", "drop_rate", "utilization_percent"]
    return .overloadStarted (← fields.required "tick" Tick.ofJson?)
      (← fields.required "drop_rate" Json.double?)
      (← fields.required "utilization_percent" Json.double?)
  | "OverloadCleared" => do
    let fields ← body.fields? ["tick", "duration_ticks"]
    return .overloadCleared (← fields.required "tick" Tick.ofJson?)
      (← fields.required "duration_ticks" Json.word?)
  | "TuningRecommended" => do
    let fields ← body.fields? ["tick", "recommendation", "applied"]
    return .tuningRecommended (← fields.required "tick" Tick.ofJson?)
      (← fields.required "recommendation" Recommendation.ofJson?)
      (← fields.required "applied" Json.flag?)
  | "Flushed" => do
    let fields ← body.fields? ["reason", "messages"]
    return .flushed (← fields.required "reason" (Json.choice? FlushReason.name FlushReason.all))
      (← fields.required "messages" Json.word?)
  | _ => none

def ofJson? : Json → Option Event
  | .object [(some kind, body)] => ofMember? kind body
  | _ => none

def render (event : Event) : String :=
  event.datum.toJson.render

def ofText? (text : String) : Option Event :=
  (Json.parse? text).bind ofJson?

end Event

end PacedFeed
