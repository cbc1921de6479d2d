import Mathlib.Tactic.Tauto
import PacedFeed.Proofs.Cadence.Firing
import PacedFeed.Proofs.Trace

-- What the past of a cadence says about it: who may still be called, and who never again.

namespace PacedFeed

namespace Cadence

-- A callback is registered, a subscription ends, or a callback is called.
inductive Event where
  | registered (id : Nat) (interval : Duration)
  | ended (id : Nat)
  | called (id : Nat) (verdict : Verdict)
  deriving DecidableEq

namespace Event

def interval? : Event → Option Duration
  | .registered _ interval => some interval
  | _ => none

def ended? : Event → Option Nat
  | .ended id => some id
  | _ => none

def quit? : Event → Option Nat
  | .called id .quit => some id
  | _ => none

def called? : Event → Option Nat
  | .called id _ => some id
  | _ => none

end Event

-- The intervals of all registrations. Their places are the numbers that were given out.
def intervals (events : List Event) : List Duration :=
  events.filterMap Event.interval?

def ended (events : List Event) : List Nat :=
  events.filterMap Event.ended?

def quitters (events : List Event) : List Nat :=
  events.filterMap Event.quit?

def called (events : List Event) : List Nat :=
  events.filterMap Event.called?

-- The registrations that were neither ended nor let go by their callbacks.
def alive (events : List Event) : List Nat :=
  (List.range (intervals events).length).filter fun id => id ∉ ended events ∧ id ∉ quitters events

-- Numbers are given out in order, and nobody is called but those who are alive.
def allowed (before : List Event) : Event → Prop
  | .registered id _ => id = (intervals before).length
  | .ended id => id < (intervals before).length
  | .called id _ => id ∈ alive before

section Lists

variable (events : List Event) (id : Nat) (interval : Duration) (verdict : Verdict)

@[simp] theorem intervals_registered :
    intervals (events ++ [.registered id interval]) = intervals events ++ [interval] := by
  simp [intervals, Event.interval?]

@[simp] theorem intervals_ended : intervals (events ++ [.ended id]) = intervals events := by
  simp [intervals, Event.interval?]

@[simp] theorem intervals_called :
    intervals (events ++ [.called id verdict]) = intervals events := by
  simp [intervals, Event.interval?]

@[simp] theorem ended_registered : ended (events ++ [.registered id interval]) = ended events := by
  simp [ended, Event.ended?]

@[simp] theorem ended_ended : ended (events ++ [.ended id]) = ended events ++ [id] := by
  simp [ended, Event.ended?]

@[simp] theorem ended_called : ended (events ++ [.called id verdict]) = ended events := by
  simp [ended, Event.ended?]

@[simp] theorem quitters_registered :
    quitters (events ++ [.registered id interval]) = quitters events := by
  simp [quitters, Event.quit?]

@[simp] theorem quitters_ended : quitters (events ++ [.ended id]) = quitters events := by
  simp [quitters, Event.quit?]

@[simp] theorem quitters_proceed :
    quitters (events ++ [.called id .proceed]) = quitters events := by
  simp [quitters, Event.quit?]

@[simp] theorem quitters_quit :
    quitters (events ++ [.called id .quit]) = quitters events ++ [id] := by
  simp [quitters, Event.quit?]

end Lists

theorem mem_alive_iff {events : List Event} {id : Nat} :
    id ∈ alive events ↔
      id < (intervals events).length ∧ id ∉ ended events ∧ id ∉ quitters events := by
  simp [alive]

variable {κ ω : Type}

-- What a move shows. One that concerns a number that was never given out shows nothing.
def Move.happen (cadence : Cadence κ) : Move κ → List Event
  | .every interval _ => [.registered cadence.subscriptions.next interval]
  | .cancel id | .drop id => if id < cadence.subscriptions.next then [.ended id] else []

def happenAll (cadence : Cadence κ) (moves : List (Move κ)) : List Event :=
  trace Move.perform Move.happen cadence moves

-- What a turn shows: the call, and what the callback asks for.
def Moment.happen (call : Registration κ → Cadence κ → ω → Turn κ ω)
    (moves : Registration κ → Cadence κ → ω → List (Move κ)) (moment : Moment κ ω) : List Event :=
  if moment.isLive then
    .called moment.entry.id (moment.turn call).verdict ::
      happenAll moment.cadence (moves moment.entry moment.cadence moment.world)
  else []

theorem called_happenAll (cadence : Cadence κ) (moves : List (Move κ)) :
    called (happenAll cadence moves) = [] := by
  unfold happenAll
  induction moves generalizing cadence with
  | nil => rfl
  | cons move moves ih =>
      have hmove : called (move.happen cadence) = [] := by
        cases move with
        | every => rfl
        | cancel id | drop id =>
            rw [Move.happen]
            split <;> rfl
      rw [trace, called, List.filterMap_append]
      exact List.append_eq_nil_iff.mpr ⟨hmove, ih _⟩

theorem called_turns (call : Registration κ → Cadence κ → ω → Turn κ ω)
    (moves : Registration κ → Cadence κ → ω → List (Move κ)) (turns : List (Moment κ ω)) :
    called (turns.flatMap (Moment.happen call moves)) =
      (turns.filter Moment.isLive).map (·.entry.id) := by
  induction turns with
  | nil => rfl
  | cons moment turns ih =>
      have hfirst : called (moment.happen call moves) =
          if moment.isLive then [moment.entry.id] else [] := by
        rw [Moment.happen]
        split
        · exact congrArg (moment.entry.id :: ·) (called_happenAll _ _)
        · rfl
      rw [List.flatMap_cons, called, List.filterMap_append, ← called, ← called, ih, hfirst,
        List.filter_cons]
      split <;> simp

-- A cadence and all that is known of its past.
structure Remembers (cadence : Cadence κ) (past : List Event) : Prop where
  next_eq : cadence.subscriptions.next = (intervals past).length
  isLive_iff : ∀ id, cadence.subscriptions.isLive id = true ↔
    id < (intervals past).length ∧ id ∉ ended past
  increasing : (cadence.entries.map Registration.id).Pairwise (· < ·)
  interval_eq : ∀ entry ∈ cadence.entries, (intervals past)[entry.id]? = some entry.interval
  not_quit : ∀ entry ∈ cadence.entries, entry.id ∉ quitters past
  mem_of_alive : ∀ id ∈ alive past, id ∈ cadence.entries.map Registration.id
  gone_lt : ∀ id, id ∈ ended past ∨ id ∈ quitters past → id < (intervals past).length
  lawful : Obeys allowed past

theorem remembers_empty : Remembers (empty : Cadence κ) [] where
  next_eq := rfl
  isLive_iff := by simp [empty, Subscriptions.none, Subscriptions.isLive, intervals]
  increasing := .nil
  interval_eq := by simp [empty]
  not_quit := by simp [empty]
  mem_of_alive := by simp [alive, intervals]
  gone_lt := by simp [ended, quitters]
  lawful := obeys_nil _

theorem entries_behind_sublist (cadence : Cadence κ) (front back : List (Registration κ))
    (entry : Registration κ) :
    (cadence.behind (front ++ back)).entries.Sublist
      (cadence.behind (front ++ entry :: back)).entries :=
  ((List.Sublist.refl front).append (List.sublist_cons_self entry back)).append_right _

section Remembers

variable {cadence : Cadence κ} {past : List Event}

theorem Remembers.id_lt (h : Remembers cadence past) {entry : Registration κ}
    (hm : entry ∈ cadence.entries) : entry.id < (intervals past).length :=
  (List.getElem?_eq_some_iff.mp (h.interval_eq entry hm)).1

theorem Remembers.mem_alive (h : Remembers cadence past) {entry : Registration κ}
    (hm : entry ∈ cadence.entries) (hl : cadence.isLive entry = true) : entry.id ∈ alive past :=
  mem_alive_iff.mpr ⟨h.id_lt hm, ((h.isLive_iff _).mp hl).2, h.not_quit entry hm⟩

theorem Remembers.register (h : Remembers cadence past) (interval : Duration) (callback : κ) :
    Remembers (cadence.every interval callback).2
      (past ++ [.registered cadence.subscriptions.next interval]) := by
  have hnext := h.next_eq
  exact {
    next_eq := by
      rw [intervals_registered, List.length_append, ← hnext]
      exact Subscriptions.next_issue _
    isLive_iff := by
      intro id
      rw [intervals_registered, ended_registered, List.length_append, List.length_singleton]
      refine (Subscriptions.isLive_issue _ _).trans ?_
      rw [h.isLive_iff, hnext]
      constructor
      · rintro (⟨hlt, hnot⟩ | rfl)
        · exact ⟨by omega, hnot⟩
        · exact ⟨by omega, fun hm => absurd (h.gone_lt _ (.inl hm)) (Nat.lt_irrefl _)⟩
      · rintro ⟨hlt, hnot⟩
        by_cases he : id = (intervals past).length
        · exact .inr he
        · exact .inl ⟨by omega, hnot⟩
    increasing := by
      rw [every, List.map_append, List.pairwise_append]
      refine ⟨h.increasing, List.pairwise_singleton _ _, ?_⟩
      intro first hf second hs
      obtain ⟨entry, hm, rfl⟩ := List.mem_map.mp hf
      rw [List.mem_singleton.mp hs]
      exact hnext ▸ h.id_lt hm
    interval_eq := by
      intro entry hm
      rw [intervals_registered]
      rcases List.mem_append.mp hm with hm | hm
      · rw [List.getElem?_append_left (h.id_lt hm)]
        exact h.interval_eq entry hm
      · rw [List.mem_singleton.mp hm, hnext]
        simp
    not_quit := by
      intro entry hm
      rw [quitters_registered]
      rcases List.mem_append.mp hm with hm | hm
      · exact h.not_quit entry hm
      · rw [List.mem_singleton.mp hm, hnext]
        exact fun hq => absurd (h.gone_lt _ (.inr hq)) (Nat.lt_irrefl _)
    mem_of_alive := by
      intro id hm
      rw [mem_alive_iff, intervals_registered, ended_registered, quitters_registered,
        List.length_append, List.length_singleton] at hm
      rw [every, List.map_append, List.mem_append]
      by_cases he : id = (intervals past).length
      · exact .inr (List.mem_singleton.mpr (he.trans hnext.symm))
      · exact .inl (h.mem_of_alive id (mem_alive_iff.mpr ⟨by omega, hm.2⟩))
    gone_lt := by
      intro id hg
      rw [ended_registered, quitters_registered] at hg
      rw [intervals_registered, List.length_append]
      exact Nat.lt_succ_of_lt (h.gone_lt id hg)
    lawful := obeys_concat_iff.mpr ⟨h.lawful, hnext⟩ }

-- Ending a subscription, one way or the other.
theorem Remembers.end (h : Remembers cadence past) {subscriptions : Subscriptions} {id : Nat}
    (hn : subscriptions.next = cadence.subscriptions.next)
    (hl : ∀ other, subscriptions.isLive other = true ↔
      cadence.subscriptions.isLive other = true ∧ other ≠ id) :
    Remembers { cadence with subscriptions := subscriptions }
      (past ++ if id < cadence.subscriptions.next then [.ended id] else []) := by
  split
  · rename_i hlt
    rw [h.next_eq] at hlt
    exact {
      next_eq := by simpa using hn.trans h.next_eq
      isLive_iff := by
        intro other
        rw [hl, h.isLive_iff, intervals_ended, ended_ended, List.mem_append, List.mem_singleton]
        tauto
      increasing := h.increasing
      interval_eq := by simpa using h.interval_eq
      not_quit := by simpa using h.not_quit
      mem_of_alive := by
        intro other hm
        rw [mem_alive_iff, intervals_ended, ended_ended, quitters_ended, List.mem_append] at hm
        exact h.mem_of_alive other (mem_alive_iff.mpr ⟨hm.1, fun he => hm.2.1 (.inl he), hm.2.2⟩)
      gone_lt := by
        intro other hg
        rw [ended_ended, quitters_ended, List.mem_append, List.mem_singleton] at hg
        rw [intervals_ended]
        rcases hg with (hg | rfl) | hg
        · exact h.gone_lt other (.inl hg)
        · exact hlt
        · exact h.gone_lt other (.inr hg)
      lawful := obeys_concat_iff.mpr ⟨h.lawful, hlt⟩ }
  · rename_i hge
    rw [List.append_nil]
    refine { h with next_eq := hn.trans h.next_eq, isLive_iff := fun other => ?_ }
    rw [hl, ← h.isLive_iff]
    refine and_iff_left_of_imp fun hlive => ?_
    rintro rfl
    exact hge (Subscriptions.lt_next_of_isLive _ _ hlive)

theorem Remembers.perform (h : Remembers cadence past) (move : Move κ) :
    Remembers (move.perform cadence) (past ++ move.happen cadence) := by
  cases move with
  | every interval callback => exact h.register interval callback
  | cancel id => exact h.end (Subscriptions.next_cancel _ _) (Subscriptions.isLive_cancel _ _)
  | drop id => exact h.end (Subscriptions.next_drop _ _) (Subscriptions.isLive_drop _ _)

theorem Remembers.performAll (h : Remembers cadence past) (moves : List (Move κ)) :
    Remembers (cadence.performAll moves) (past ++ happenAll cadence moves) := by
  induction moves generalizing cadence past with
  | nil => simpa [Cadence.performAll, happenAll, trace] using h
  | cons move moves ih => simpa [Cadence.performAll, happenAll, trace] using ih (h.perform move)

-- An entry that is not live need not be kept.
theorem Remembers.forget {front back : List (Registration κ)} {entry : Registration κ}
    (h : Remembers (cadence.behind (front ++ entry :: back)) past)
    (hdead : cadence.isLive entry = false) : Remembers (cadence.behind (front ++ back)) past := by
  have hsub := cadence.entries_behind_sublist front back entry
  exact { h with
    increasing := h.increasing.sublist (hsub.map Registration.id)
    interval_eq := fun other hm => h.interval_eq other (hsub.subset hm)
    not_quit := fun other hm => h.not_quit other (hsub.subset hm)
    mem_of_alive := by
      intro id hm
      have hne : id ≠ entry.id := by
        rintro rfl
        obtain ⟨hlt, hnot, -⟩ := mem_alive_iff.mp hm
        have hlive : cadence.isLive entry = true := (h.isLive_iff _).mpr ⟨hlt, hnot⟩
        rw [hdead] at hlive
        exact absurd hlive Bool.false_ne_true
      have hid := h.mem_of_alive id hm
      simp only [behind, List.map_append, List.map_cons, List.mem_append, List.mem_cons] at hid ⊢
      tauto }

-- What becomes of the callback of an entry makes no difference.
theorem Remembers.recall {front back : List (Registration κ)} {entry : Registration κ}
    (h : Remembers (cadence.behind (front ++ entry :: back)) past) (callback : κ) :
    Remembers (cadence.behind (front ++ { entry with callback := callback } :: back)) past := by
  have hids : (cadence.behind (front ++ { entry with callback := callback } :: back)).entries.map
      Registration.id = (cadence.behind (front ++ entry :: back)).entries.map Registration.id := by
    simp [behind]
  have hsame : ∀ other ∈ (cadence.behind
      (front ++ { entry with callback := callback } :: back)).entries,
      ∃ old ∈ (cadence.behind (front ++ entry :: back)).entries,
        other.id = old.id ∧ other.interval = old.interval := by
    intro other hm
    simp only [behind, List.mem_append, List.mem_cons] at hm ⊢
    rcases hm with (hm | rfl | hm) | hm
    · exact ⟨other, .inl (.inl hm), rfl, rfl⟩
    · exact ⟨entry, .inl (.inr (.inl rfl)), rfl, rfl⟩
    · exact ⟨other, .inl (.inr (.inr hm)), rfl, rfl⟩
    · exact ⟨other, .inr hm, rfl, rfl⟩
  exact { h with
    increasing := hids ▸ h.increasing
    interval_eq := by
      intro other hm
      obtain ⟨old, hold, hid, hinterval⟩ := hsame other hm
      rw [hid, hinterval]
      exact h.interval_eq old hold
    not_quit := by
      intro other hm
      obtain ⟨old, hold, hid, -⟩ := hsame other hm
      rw [hid]
      exact h.not_quit old hold
    mem_of_alive := hids ▸ h.mem_of_alive }

theorem Remembers.proceed {entry : Registration κ} (h : Remembers cadence past)
    (hm : entry ∈ cadence.entries) (hl : cadence.isLive entry = true) :
    Remembers cadence (past ++ [.called entry.id .proceed]) := by
  have halive : alive (past ++ [.called entry.id .proceed]) = alive past := by
    rw [alive, intervals_called, ended_called, quitters_proceed, alive]
  exact {
    next_eq := by simpa using h.next_eq
    isLive_iff := by simpa using h.isLive_iff
    increasing := h.increasing
    interval_eq := by simpa using h.interval_eq
    not_quit := by simpa using h.not_quit
    mem_of_alive := halive ▸ h.mem_of_alive
    gone_lt := by simpa using h.gone_lt
    lawful := obeys_concat_iff.mpr ⟨h.lawful, h.mem_alive hm hl⟩ }

-- No two entries have one number.
theorem Remembers.id_ne {front back : List (Registration κ)} {entry other : Registration κ}
    (h : Remembers (cadence.behind (front ++ entry :: back)) past)
    (hm : other ∈ front ++ back ++ cadence.entries) : other.id ≠ entry.id := by
  have hincreasing := h.increasing
  simp only [behind, List.map_append, List.map_cons, List.append_assoc, List.cons_append,
    List.pairwise_append, List.pairwise_cons] at hincreasing
  have hid : other.id ∈ front.map Registration.id ∨
      other.id ∈ back.map Registration.id ++ cadence.entries.map Registration.id := by
    rw [← List.map_append, ← List.mem_append, ← List.map_append, ← List.append_assoc]
    exact List.mem_map_of_mem hm
  rcases hid with hid | hid
  · exact Nat.ne_of_lt (hincreasing.2.2 _ hid _ List.mem_cons_self)
  · exact Nat.ne_of_gt (hincreasing.2.1.1 _ hid)

-- A callback that quits takes its entry with it.
theorem Remembers.quit {front back : List (Registration κ)} {entry : Registration κ}
    (h : Remembers (cadence.behind (front ++ entry :: back)) past)
    (hl : cadence.isLive entry = true) :
    Remembers (cadence.behind (front ++ back)) (past ++ [.called entry.id .quit]) := by
  have hmem : entry ∈ (cadence.behind (front ++ entry :: back)).entries := by simp [behind]
  have hsub := cadence.entries_behind_sublist front back entry
  exact {
    next_eq := by simpa using h.next_eq
    isLive_iff := by simpa using h.isLive_iff
    increasing := h.increasing.sublist (hsub.map Registration.id)
    interval_eq := by
      intro other hm
      rw [intervals_called]
      exact h.interval_eq other (hsub.subset hm)
    not_quit := by
      intro other hm
      rw [quitters_quit, List.mem_append, List.mem_singleton]
      rintro (hq | he)
      · exact h.not_quit other (hsub.subset hm) hq
      · exact h.id_ne hm he
    mem_of_alive := by
      intro id hm
      rw [mem_alive_iff, intervals_called, ended_called, quitters_quit, List.mem_append,
        List.mem_singleton] at hm
      have hid := h.mem_of_alive id (mem_alive_iff.mpr ⟨hm.1, hm.2.1, fun hq => hm.2.2 (.inl hq)⟩)
      simp only [behind, List.map_append, List.map_cons, List.mem_append, List.mem_cons] at hid ⊢
      tauto
    gone_lt := by
      intro id hg
      rw [ended_called, quitters_quit, List.mem_append, List.mem_singleton] at hg
      rw [intervals_called]
      rcases hg with hg | hg | rfl
      · exact h.gone_lt id (.inl hg)
      · exact h.gone_lt id (.inr hg)
      · exact h.id_lt hmem
    lawful := obeys_concat_iff.mpr ⟨h.lawful, h.mem_alive hmem hl⟩ }

theorem Remembers.happen_behind (front : List (Registration κ)) (moves : List (Move κ)) :
    happenAll (cadence.behind front) moves = happenAll cadence moves := by
  unfold happenAll
  induction moves generalizing cadence with
  | nil => rfl
  | cons move moves ih =>
      have hmove : move.happen (cadence.behind front) = move.happen cadence := by
        cases move <;> rfl
      rw [trace, trace, perform_behind, hmove, ih]

variable {call : Registration κ → Cadence κ → ω → Turn κ ω}
variable {moves : Registration κ → Cadence κ → ω → List (Move κ)}

-- The turn of one entry, and what is left of it.
theorem Remembers.turn
    (hcall : ∀ entry cadence world,
      (call entry cadence world).cadence = cadence.performAll (moves entry cadence world))
    {front back : List (Registration κ)} {entry : Registration κ} (world : ω)
    (h : Remembers (cadence.behind (front ++ entry :: back)) past)
    (hl : cadence.isLive entry = true) :
    let moment : Moment κ ω := ⟨entry, cadence, world⟩
    let kept := if moment.stays call then [moment.kept call] else []
    Remembers ((moment.turn call).cadence.behind (front ++ kept ++ back))
      (past ++ moment.happen call moves) := by
  intro moment kept
  have hmem : entry ∈ (cadence.behind (front ++ entry :: back)).entries := by simp [behind]
  have hstays : moment.stays call = true ↔ (moment.turn call).verdict = .proceed ∧
      (moment.turn call).cadence.isLive entry = true := by
    simp [Moment.stays, Moment.isLive, moment, hl]
  have hturn : (moment.turn call).cadence = cadence.performAll (moves entry cadence world) :=
    hcall entry cadence world
  have hhappen : moment.happen call moves = [.called entry.id (moment.turn call).verdict] ++
      happenAll cadence (moves entry cadence world) :=
    if_pos hl
  rw [hhappen, ← List.append_assoc]
  cases hv : (moment.turn call).verdict with
  | quit =>
      have hkept : kept = [] := if_neg fun hs => by simp [hv] at hstays; simp [hs] at hstays
      have hquit := (h.quit hl).performAll (moves entry cadence world)
      rw [happen_behind, performAll_behind, ← hturn] at hquit
      simpa [hkept] using hquit
  | proceed =>
      have hproceed := (h.proceed hmem hl).performAll (moves entry cadence world)
      rw [happen_behind, performAll_behind, ← hturn] at hproceed
      by_cases hs : (moment.turn call).cadence.isLive entry = true
      · have hkept : kept = [moment.kept call] := if_pos (hstays.mpr ⟨hv, hs⟩)
        simpa [hkept, Moment.kept, moment] using hproceed.recall (moment.turn call).callback
      · have hkept : kept = [] := if_neg fun hk => hs (hstays.mp hk).2
        simpa [hkept] using hproceed.forget (Bool.eq_false_iff.mpr hs)

theorem Remembers.fireEach
    (hcall : ∀ entry cadence world,
      (call entry cadence world).cadence = cadence.performAll (moves entry cadence world))
    (entries front : List (Registration κ)) (world : ω)
    (h : Remembers (cadence.behind (front ++ entries)) past) :
    let firing := Cadence.fireEach call entries cadence world
    Remembers (firing.cadence.behind (front ++ firing.kept))
      (past ++ (moments call entries cadence world).flatMap (Moment.happen call moves)) := by
  induction entries generalizing cadence world front past with
  | nil => simpa [Cadence.fireEach, moments] using h
  | cons entry rest ih =>
      by_cases hl : cadence.isLive entry = true
      · have hrest := ih _ (call entry cadence world).world (h.turn hcall world hl)
        have hcadence : (Cadence.fireEach call (entry :: rest) cadence world).cadence =
            (Cadence.fireEach call rest (call entry cadence world).cadence
              (call entry cadence world).world).cadence := by
          simp [Cadence.fireEach, hl]
        have hkept : (Cadence.fireEach call (entry :: rest) cadence world).kept =
            (if (⟨entry, cadence, world⟩ : Moment κ ω).stays call then
              [(⟨entry, cadence, world⟩ : Moment κ ω).kept call] else []) ++
              (Cadence.fireEach call rest (call entry cadence world).cadence
                (call entry cadence world).world).kept := by
          rw [kept_fireEach, kept_fireEach, moments, if_pos hl, List.filter_cons]
          split <;> simp
        rw [moments, if_pos hl, List.flatMap_cons, ← List.append_assoc]
        dsimp only
        rw [hcadence, hkept, ← List.append_assoc]
        exact hrest
      · have hrest := ih front world (h.forget (Bool.eq_false_iff.mpr hl))
        simpa [Cadence.fireEach, moments, Moment.happen, Moment.isLive, hl] using hrest

end Remembers

end Cadence

end PacedFeed
