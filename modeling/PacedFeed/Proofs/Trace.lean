import Mathlib.Data.List.Induction

-- What is seen of a system along a run.

namespace PacedFeed

section Trace

variable {σ τ ι κ α : Type}

-- The observations of all steps, in order. Each one may look at the state its step starts from.
def trace (step : σ → ι → σ) (observe : σ → ι → List α) : σ → List ι → List α
  | _, [] => []
  | state, input :: inputs => observe state input ++ trace step observe (step state input) inputs

variable (step : σ → ι → σ) (observe : σ → ι → List α)

theorem trace_append (state : σ) (first second : List ι) :
    trace step observe state (first ++ second) =
      trace step observe state first ++ trace step observe (first.foldl step state) second := by
  induction first generalizing state with
  | nil => rfl
  | cons input first ih =>
      simp only [List.cons_append, trace, ih, List.foldl_cons, List.append_assoc]

@[simp] theorem trace_concat (state : σ) (inputs : List ι) (input : ι) :
    trace step observe state (inputs ++ [input]) =
      trace step observe state inputs ++ observe (inputs.foldl step state) input := by
  simp [trace_append, trace]

-- What one step preserves holds after every run.
theorem trace_induction {motive : σ → List α → Prop} {state : σ} (initial : motive state [])
    (next : ∀ state seen input, motive state seen →
      motive (step state input) (seen ++ observe state input)) (inputs : List ι) :
    motive (inputs.foldl step state) (trace step observe state inputs) := by
  induction inputs using List.reverseRecOn with
  | nil => exact initial
  | append_singleton inputs input ih =>
      rw [trace_concat, List.foldl_append, List.foldl_cons, List.foldl_nil]
      exact next _ _ input ih

-- What every step keeps and brings closer is kept, and is reached in time.
theorem foldl_le_sub_length (P : σ → Prop) (distance : σ → Nat) {inputs : List ι}
    (next : ∀ state, P state → ∀ input ∈ inputs,
      P (step state input) ∧ distance (step state input) ≤ distance state - 1)
    {state : σ} (initial : P state) :
    P (inputs.foldl step state) ∧
      distance (inputs.foldl step state) ≤ distance state - inputs.length := by
  induction inputs generalizing state with
  | nil => exact ⟨initial, Nat.le_refl _⟩
  | cons input inputs ih =>
      obtain ⟨hnext, hcloser⟩ := next state initial input List.mem_cons_self
      obtain ⟨hlast, hreached⟩ :=
        ih (fun state h input hm => next state h input (List.mem_cons_of_mem _ hm)) hnext
      refine ⟨hlast, ?_⟩
      rw [List.foldl_cons, List.length_cons]
      omega

-- What is kept up to date along a run, step by step.
def track {β : Type} (step : σ → ι → σ) (update : σ → ι → β → β) : σ → β → List ι → β
  | _, kept, [] => kept
  | state, kept, input :: inputs =>
    track step update (step state input) (update state input kept) inputs

theorem track_concat {β : Type} (update : σ → ι → β → β) (state : σ) (kept : β) (inputs : List ι)
    (input : ι) :
    track step update state kept (inputs ++ [input]) =
      update (inputs.foldl step state) input (track step update state kept inputs) := by
  induction inputs generalizing state kept with
  | nil => rfl
  | cons first inputs ih => exact ih _ _

-- Two runs are seen alike if each step of one is seen like the same step of the other.
theorem trace_congr {other : σ → ι → List α} {first second : σ}
    (h : ∀ (inputs : List ι) (input : ι),
      observe (inputs.foldl step first) input = other (inputs.foldl step second) input)
    (inputs : List ι) : trace step observe first inputs = trace step other second inputs := by
  induction inputs generalizing first second with
  | nil => rfl
  | cons input inputs ih =>
      have hrest := ih fun later last => h (input :: later) last
      have hinput : observe first input = other second input := h [] input
      rw [trace, trace, hinput, hrest]

theorem filter_trace (p : α → Bool) (state : σ) (inputs : List ι) :
    (trace step observe state inputs).filter p =
      trace step (fun state input => (observe state input).filter p) state inputs := by
  induction inputs generalizing state with
  | nil => rfl
  | cons input inputs ih => rw [trace, List.filter_append, ih, trace]

-- Every event is allowed by those before it.
def Obeys (rule : List α → α → Prop) (events : List α) : Prop :=
  ∀ before event after, events = before ++ event :: after → rule before event

theorem obeys_nil (rule : List α → α → Prop) : Obeys rule [] := by
  intro before event after h
  exact absurd h.symm (List.append_ne_nil_of_right_ne_nil before (List.cons_ne_nil event after))

theorem obeys_concat_iff {rule : List α → α → Prop} {events : List α} {event : α} :
    Obeys rule (events ++ [event]) ↔ Obeys rule events ∧ rule events event := by
  constructor
  · intro h
    refine ⟨fun before other after he => ?_, h events event [] rfl⟩
    refine h before other (after ++ [event]) ?_
    rw [he, List.append_assoc, List.cons_append]
  · rintro ⟨hpast, hlast⟩ before other after h
    induction after using List.reverseRecOn with
    | nil =>
        obtain ⟨rfl, he⟩ := List.append_inj' h rfl
        obtain ⟨rfl, -⟩ := List.cons.inj he
        exact hlast
    | append_singleton rest last _ =>
        rw [← List.cons_append, ← List.append_assoc] at h
        exact hpast before other rest (List.append_inj' h rfl).1

-- A part of a larger system runs on what the steps of that system ask of it.
section View

variable (outer : τ → κ → τ) (inner : τ → κ → List ι) (view : τ → σ)

theorem view_foldl
    (h : ∀ whole input, view (outer whole input) = (inner whole input).foldl step (view whole))
    (whole : τ) (inputs : List κ) :
    view (inputs.foldl outer whole) = (trace outer inner whole inputs).foldl step (view whole) := by
  induction inputs generalizing whole with
  | nil => rfl
  | cons input inputs ih => rw [List.foldl_cons, ih, trace, List.foldl_append, h]

end View

end Trace

end PacedFeed
