import Mathlib.Data.List.Sort
import PacedFeed.Proofs.Cadence.Past

-- Every way to use a cadence, whatever the callbacks do to it and to the world.

namespace PacedFeed

open Cadence

variable {κ ω : Type}

-- A cadence, and the world its callbacks live in.
structure Pacing (κ ω : Type) where
  cadence : Cadence κ
  world : ω

namespace Pacing

inductive Step (κ : Type) where
  | move (move : Move κ)
  | fire

section Runs

variable (call : Registration κ → Cadence κ → ω → Turn κ ω)
variable (moves : Registration κ → Cadence κ → ω → List (Move κ))

def step (pacing : Pacing κ ω) : Step κ → Pacing κ ω
  | .move move => { pacing with cadence := move.perform pacing.cadence }
  | .fire =>
    let (_, cadence, world) := pacing.cadence.fire call pacing.world
    ⟨cadence, world⟩

def run (pacing : Pacing κ ω) (steps : List (Step κ)) : Pacing κ ω :=
  steps.foldl (step call) pacing

def happen (pacing : Pacing κ ω) : Step κ → List Event
  | .move move => move.happen pacing.cadence
  | .fire => (turns call pacing.cadence pacing.world).flatMap (Moment.happen call moves)

def history (pacing : Pacing κ ω) (steps : List (Step κ)) : List Event :=
  trace (step call) (happen call moves) pacing steps

end Runs

end Pacing

namespace Cadence

variable {call : Registration κ → Cadence κ → ω → Turn κ ω}
variable {moves : Registration κ → Cadence κ → ω → List (Move κ)}
variable {cadence : Cadence κ} {past : List Event}

section Runs

variable (h : ∀ entry cadence world,
  (call entry cadence world).cadence = cadence.performAll (moves entry cadence world))
include h

theorem Remembers.fire (world : ω) (hr : Remembers cadence past) :
    Remembers (cadence.fire call world).2.1
      (past ++ (turns call cadence world).flatMap (Moment.happen call moves)) := by
  have hbehind : Remembers
      (({ cadence with entries := [] } : Cadence κ).behind ([] ++ cadence.entries)) past := by
    simpa [behind] using hr
  exact hbehind.fireEach h cadence.entries [] world

theorem remembers_run (world : ω) (steps : List (Pacing.Step κ)) :
    let start : Pacing κ ω := ⟨empty, world⟩
    Remembers (start.run call steps).cadence (start.history call moves steps) := by
  have next : ∀ (pacing : Pacing κ ω) past (step : Pacing.Step κ), Remembers pacing.cadence past →
      Remembers (pacing.step call step).cadence (past ++ pacing.happen call moves step) := by
    intro pacing past step hr
    cases step with
    | move move => exact hr.perform move
    | fire => exact hr.fire h pacing.world
  exact trace_induction (motive := fun (pacing : Pacing κ ω) past => Remembers pacing.cadence past)
    _ _ remembers_empty next steps

end Runs

-- The live entries are those the past leaves alive.
theorem Remembers.live_eq (hr : Remembers cadence past) :
    (cadence.entries.filter cadence.isLive).map Registration.id = alive past := by
  have hincreasing : ((cadence.entries.filter cadence.isLive).map Registration.id).Pairwise
      (· < ·) :=
    hr.increasing.sublist (List.filter_sublist.map Registration.id)
  have halive : (alive past).Pairwise (· < ·) := List.pairwise_lt_range.filter _
  refine hincreasing.eq_of_mem_iff halive fun id => ?_
  rw [List.mem_map]
  constructor
  · rintro ⟨entry, hm, rfl⟩
    obtain ⟨hm, hl⟩ := List.mem_filter.mp hm
    exact hr.mem_alive hm hl
  · intro hm
    obtain ⟨entry, hentry, rfl⟩ := List.mem_map.mp (hr.mem_of_alive id hm)
    obtain ⟨hlt, hnot, -⟩ := mem_alive_iff.mp hm
    exact ⟨entry, List.mem_filter.mpr ⟨hentry, (hr.isLive_iff _).mpr ⟨hlt, hnot⟩⟩, rfl⟩

theorem Remembers.active_eq (hr : Remembers cadence past) :
    cadence.active = (alive past).length := by
  rw [← hr.live_eq, List.length_map, active, List.countP_eq_length_filter]

theorem Remembers.lastInterval_eq (hr : Remembers cadence past) :
    cadence.lastInterval? = (alive past).getLast?.bind fun id => (intervals past)[id]? := by
  rw [lastInterval?_eq, ← hr.live_eq, List.getLast?_map]
  cases hl : (cadence.entries.filter cadence.isLive).getLast? with
  | none => rfl
  | some entry =>
      have hm := (List.mem_filter.mp (List.mem_of_getLast? hl)).1
      exact (hr.interval_eq entry hm).symm

-- Fired in any state a run can reach, a cadence calls the live ones of its entries once, in the
-- order of their registration. Who stays is decided after its call, and who was registered
-- meanwhile comes last. Nobody who quit or was cancelled is called again, and nobody else is lost.
theorem firing_disciplined
    (h : ∀ entry cadence world,
      (call entry cadence world).cadence = cadence.performAll (moves entry cadence world))
    (world : ω) (steps : List (Pacing.Step κ)) :
    let start : Pacing κ ω := ⟨empty, world⟩
    let past := start.history call moves steps
    let now := start.run call steps
    let cadence := now.cadence
    let turns := turns call cadence now.world
    let ran := (cadence.fire call now.world).1
    let fired := (cadence.fire call now.world).2.1
    (turns.map Moment.entry = cadence.entries ∧
      (cadence.entries.map Registration.id).Pairwise (· < ·) ∧
      ∀ entry ∈ cadence.entries, entry.id < cadence.subscriptions.next) ∧
    (∀ before moment after, turns = before ++ moment :: after →
      moment.cadence = { cadence with entries := [] }.performAll (made moves before)) ∧
    ran = (turns.filter Moment.isLive).map (·.entry.id) ∧
    (cadence.fire (logged call) (now.world, [])).2.2.2 = ran ∧
    called (start.history call moves (steps ++ [.fire])) = called past ++ ran ∧
    fired.entries = (turns.filter (Moment.stays call)).map (Moment.kept call) ++
      enlisted cadence.subscriptions.next (made moves turns) ∧
    fired.subscriptions = (cadence.performAll (made moves turns)).subscriptions ∧
    Obeys allowed past ∧
    (cadence.entries.filter cadence.isLive).map Registration.id = alive past ∧
    cadence.active = (alive past).length ∧
    cadence.lastInterval? = (alive past).getLast?.bind fun id => (intervals past)[id]? := by
  intro start past now cadence turns ran fired
  have hr : Remembers cadence past := remembers_run h world steps
  have hmade := cadence_fireEach h cadence.entries { cadence with entries := [] } now.world
  refine ⟨⟨moments_entry call _ _ _, hr.increasing, ?_⟩, fun _ _ _ => cadence_of_moments h,
    ran_fireEach call _ _ _, ?_, ?_, ?_, ?_, hr.lawful, hr.live_eq, hr.active_eq,
    hr.lastInterval_eq⟩
  · intro entry hm
    rw [hr.next_eq]
    exact hr.id_lt hm
  · have hlogged := fireEach_logged call cadence.entries { cadence with entries := [] } now.world []
    simp [fire, hlogged, ran]
  · have hfire : start.history call moves (steps ++ [.fire]) =
        past ++ turns.flatMap (Moment.happen call moves) :=
      trace_concat _ _ _ _ _
    have hran : ran = (turns.filter Moment.isLive).map (·.entry.id) := ran_fireEach call _ _ _
    rw [hfire, called, List.filterMap_append, ← called, ← called, called_turns, hran]
  · have hkept := kept_fireEach call cadence.entries { cadence with entries := [] } now.world
    have hnew : (fireEach call cadence.entries { cadence with entries := [] } now.world
        ).cadence.entries = enlisted cadence.subscriptions.next (made moves turns) := by
      rw [hmade, entries_performAll]
      rfl
    simp only [fired, fire, hkept, hnew, turns, Cadence.turns]
  · have hmoved : cadence.performAll (made moves turns) =
        (({ cadence with entries := [] } : Cadence κ).performAll (made moves turns)).behind
          cadence.entries := by
      rw [← performAll_behind]
      simp [behind]
    rw [hmoved, subscriptions_behind]
    simp only [fired, fire, hmade, turns, Cadence.turns]

theorem firing_disciplined_scripted :
    let cancels : Script := .mk [(1, [.cancel 2, .register 40 (.mk [] none)])] (some 2)
    let leaves : Script := .mk [(1, [.drop 1])] none
    let stays : Script := .mk [] none
    let steps : List (Pacing.Step ScriptedCallback) :=
      [.move (.every 10 cancels.callback), .move (.every 20 leaves.callback),
        .move (.every 30 stays.callback), .fire, .fire]
    let cadence := (Pacing.run ScriptedCallback.call ⟨empty, ()⟩ steps).cadence
    let past : List Event :=
      [.registered 0 10, .registered 1 20, .registered 2 30,
        .called 0 .proceed, .ended 2, .registered 3 40, .called 1 .proceed, .ended 1,
        .called 0 .quit, .called 3 .proceed]
    Obeys allowed past ∧ (cadence.entries.filter cadence.isLive).map Registration.id = [3] ∧
    cadence.active = 1 ∧ cadence.lastInterval? = some 40 := by
  intro cancels leaves stays steps cadence past
  have hpast : Pacing.history ScriptedCallback.call
      (fun entry _ _ => ScriptedCallback.moves entry) ⟨empty, ()⟩ steps = past := by
    decide +kernel +revert
  have halive : alive past = [3] := by
    decide +kernel +revert
  obtain ⟨-, -, -, -, -, -, -, hlawful, hlive, hactive, hlast⟩ :=
    firing_disciplined ScriptedCallback.cadence_call () steps
  rw [hpast] at hlawful hlive hactive hlast
  rw [halive] at hlive hactive hlast
  exact ⟨hlawful, hlive, hactive, hlast⟩

end Cadence

end PacedFeed
