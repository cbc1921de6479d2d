import PacedFeed.Proofs.Cadence.Moves

-- One firing of a cadence, told turn by turn.

namespace PacedFeed.Cadence

variable {κ ω : Type}

-- The turn of one entry: the cadence and the world as they are when it comes.
structure Moment (κ ω : Type) where
  entry : Registration κ
  cadence : Cadence κ
  world : ω

namespace Moment

def isLive (moment : Moment κ ω) : Bool :=
  moment.cadence.isLive moment.entry

variable (call : Registration κ → Cadence κ → ω → Turn κ ω)

def turn (moment : Moment κ ω) : Turn κ ω :=
  call moment.entry moment.cadence moment.world

-- Whether the entry is called, wants to go on and is not cancelled by then.
def stays (moment : Moment κ ω) : Bool :=
  moment.isLive ∧ (moment.turn call).verdict = .proceed ∧
    (moment.turn call).cadence.isLive moment.entry

-- The entry with what became of its callback.
def kept (moment : Moment κ ω) : Registration κ :=
  { moment.entry with callback := (moment.turn call).callback }

end Moment

section Firing

variable (call : Registration κ → Cadence κ → ω → Turn κ ω)

-- The turns of some entries, one after the other. An entry that is not live when its turn comes is
-- passed over.
def moments : List (Registration κ) → Cadence κ → ω → List (Moment κ ω)
  | [], _, _ => []
  | entry :: rest, cadence, world =>
    ⟨entry, cadence, world⟩ ::
      if cadence.isLive entry then
        moments rest (call entry cadence world).cadence (call entry cadence world).world
      else moments rest cadence world

-- The turns of one firing. The entries are set aside for it, so that what is registered meanwhile
-- is not among them.
def turns (cadence : Cadence κ) (world : ω) : List (Moment κ ω) :=
  moments call cadence.entries { cadence with entries := [] } world

theorem moments_entry (entries : List (Registration κ)) (cadence : Cadence κ) (world : ω) :
    (moments call entries cadence world).map Moment.entry = entries := by
  induction entries generalizing cadence world with
  | nil => rfl
  | cons entry rest ih =>
      rw [moments, List.map_cons]
      split <;> rw [ih]

theorem ran_fireEach (entries : List (Registration κ)) (cadence : Cadence κ) (world : ω) :
    (fireEach call entries cadence world).ran =
      ((moments call entries cadence world).filter Moment.isLive).map (·.entry.id) := by
  induction entries generalizing cadence world with
  | nil => rfl
  | cons entry rest ih =>
      by_cases hl : cadence.isLive entry = true
      · simp [fireEach, moments, Moment.isLive, hl, ih]
      · simp [fireEach, moments, Moment.isLive, hl, ih]

theorem kept_fireEach (entries : List (Registration κ)) (cadence : Cadence κ) (world : ω) :
    (fireEach call entries cadence world).kept =
      ((moments call entries cadence world).filter (Moment.stays call)).map
        (Moment.kept call) := by
  induction entries generalizing cadence world with
  | nil => rfl
  | cons entry rest ih =>
      by_cases hl : cadence.isLive entry = true
      · have hstays : (⟨entry, cadence, world⟩ : Moment κ ω).stays call = true ↔
            (call entry cadence world).verdict = .proceed ∧
              (call entry cadence world).cadence.isLive entry = true := by
          simp [Moment.stays, Moment.isLive, Moment.turn, hl]
        rw [fireEach, moments, if_pos hl, if_pos hl]
        dsimp only
        split
        · rename_i hs
          rw [List.filter_cons_of_pos (hstays.mpr hs), List.map_cons, ih]
          rfl
        · rename_i hs
          rw [List.filter_cons_of_neg fun h => hs (hstays.mp h), ih]
      · simp [fireEach, moments, Moment.isLive, Moment.stays, hl, ih]

-- A callback that tells the world when it is called.
def logged (call : Registration κ → Cadence κ → ω → Turn κ ω) (entry : Registration κ)
    (cadence : Cadence κ) (world : ω × List Nat) : Turn κ (ω × List Nat) :=
  let turn := call entry cadence world.1
  ⟨turn.verdict, turn.callback, turn.cadence, (turn.world, world.2 ++ [entry.id])⟩

theorem fireEach_logged (entries : List (Registration κ)) (cadence : Cadence κ) (world : ω)
    (log : List Nat) :
    let firing := fireEach call entries cadence world
    fireEach (logged call) entries cadence (world, log) =
      ⟨firing.ran, firing.kept, firing.cadence, (firing.world, log ++ firing.ran)⟩ := by
  induction entries generalizing cadence world log with
  | nil => simp [fireEach]
  | cons entry rest ih =>
      by_cases hl : cadence.isLive entry = true
      · simp [fireEach, logged, hl, ih]
      · simp [fireEach, hl, ih]

end Firing

section Moves

variable {call : Registration κ → Cadence κ → ω → Turn κ ω}
variable {moves : Registration κ → Cadence κ → ω → List (Move κ)}

-- What the callbacks that run in some turns ask for, in order.
def made (moves : Registration κ → Cadence κ → ω → List (Move κ)) (turns : List (Moment κ ω)) :
    List (Move κ) :=
  (turns.filter Moment.isLive).flatMap fun moment =>
    moves moment.entry moment.cadence moment.world

variable (h : ∀ entry cadence world,
  (call entry cadence world).cadence = cadence.performAll (moves entry cadence world))
include h

-- The cadence is moved by the callbacks and by nothing else.
theorem cadence_fireEach (entries : List (Registration κ)) (cadence : Cadence κ) (world : ω) :
    (fireEach call entries cadence world).cadence =
      cadence.performAll (made moves (moments call entries cadence world)) := by
  induction entries generalizing cadence world with
  | nil => rfl
  | cons entry rest ih =>
      by_cases hl : cadence.isLive entry = true
      · simp [fireEach, moments, made, Moment.isLive, hl, ih, performAll, h]
      · simp [fireEach, moments, made, Moment.isLive, hl, ih]

-- When a turn comes, the cadence is what the turns before it have made of it.
theorem cadence_of_moments {entries : List (Registration κ)} {cadence : Cadence κ} {world : ω}
    {before after : List (Moment κ ω)} {moment : Moment κ ω}
    (ht : moments call entries cadence world = before ++ moment :: after) :
    moment.cadence = cadence.performAll (made moves before) := by
  induction entries generalizing cadence world before with
  | nil => simp [moments] at ht
  | cons entry rest ih =>
      rw [moments] at ht
      cases before with
      | nil =>
          obtain ⟨rfl, -⟩ := List.cons.inj ht
          rfl
      | cons first before =>
          obtain ⟨rfl, hrest⟩ := List.cons.inj ht
          by_cases hl : cadence.isLive entry = true
          · rw [if_pos hl] at hrest
            simp [ih hrest, h, made, Moment.isLive, hl, performAll]
          · rw [if_neg hl] at hrest
            simp [ih hrest, made, Moment.isLive, hl]

end Moves

end PacedFeed.Cadence
