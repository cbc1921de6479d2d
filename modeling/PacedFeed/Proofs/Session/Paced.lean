import PacedFeed.Proofs.Cadence.Moves
import PacedFeed.Proofs.Session.Starts

-- Who drives the frames of a session: nobody, its cadence or its timers, and never two at once.

namespace PacedFeed

-- Nobody is called where nobody is live.
theorem Cadence.fireEach_of_none_live {κ ω : Type}
    (call : Registration κ → Cadence κ → ω → Turn κ ω) {entries : List (Registration κ)}
    (cadence : Cadence κ) (world : ω)
    (h : entries.filter cadence.isLive = []) :
    fireEach call entries cadence world = ⟨[], [], cadence, world⟩ := by
  induction entries with
  | nil => rfl
  | cons entry entries ih =>
      rw [List.filter_eq_nil_iff] at h ih
      rw [fireEach, if_neg (h entry List.mem_cons_self)]
      exact ih fun other hm => h other (List.mem_cons_of_mem _ hm)

namespace Pace

def starter : Pace → Starter
  | .fired _ => .cadence
  | .timed _ => .timers

def fired? : Pace → Option Nat
  | .fired id => some id
  | .timed _ => none

-- Only who is driven by the cadence has a registration there.
theorem length_fired (pace : Option Pace) :
    (pace.bind fired?).toList.length =
      if (pace.map starter).getD .hand = .cadence then 1 else 0 := by
  cases pace with
  | none => rfl
  | some pace => cases pace <;> rfl

end Pace

theorem Starter.getD_eq_cadence_iff {last : Option Starter} :
    last.getD .hand = .cadence ↔ last = some .cadence := by
  cases last <;> simp

namespace Session

-- A fire that does not come back because its frame fails takes the registration along, and only a
-- start brings a new one.
def lose (session : Session) (step : Step) (lost : Bool) : Bool :=
  (session.started step).isEmpty && (lost || session.fails step)

-- Whether a frame has failed in a fire since the latest start that was not ignored.
def lost (session : Session) (steps : List Step) : Bool :=
  track step lose session false steps

theorem lost_concat (session : Session) (steps : List Step) (last : Step) :
    session.lost (steps ++ [last]) = (session.run steps).lose last (session.lost steps) :=
  track_concat _ _ _ _ _ _

-- How many frames each fire is to run.
def rate (session : Session) (starts : List Starter) (lost : Bool) : Nat :=
  if lost = false ∧ session.isRunning ∧ starts.getLast? = some .cadence then 1 else 0

-- The live registration of a cadence is the one that is remembered, unless it was lost.
structure Enlists (cadence : Cadence Unit) (pace : Option Pace) (lost : Bool) : Prop where
  id_lt : ∀ entry ∈ cadence.entries, entry.id < cadence.subscriptions.next
  live_eq : (cadence.entries.filter cadence.isLive).map Registration.id =
    if lost then [] else (pace.bind Pace.fired?).toList

-- What is known of a session from its starts.
structure Paced (session : Session) (starts : List Starter) (lost : Bool) : Prop
    extends Enlists session.cadence session.pace lost where
  resting : session.isRunning = false → session.pace = none
  driven : session.isRunning = true →
    (session.pace.map Pace.starter).getD .hand = starts.getLast?.getD .hand

section Enlists

variable {cadence : Cadence Unit} {pace : Option Pace} {lost : Bool}

theorem Enlists.id_eq (h : Enlists cadence pace lost) {entry : Registration Unit}
    (hm : entry ∈ cadence.entries) (hl : cadence.isLive entry = true) :
    pace.bind Pace.fired? = some entry.id := by
  have hmem : entry.id ∈ (cadence.entries.filter cadence.isLive).map Registration.id :=
    List.mem_map_of_mem (List.mem_filter.mpr ⟨hm, hl⟩)
  rw [h.live_eq] at hmem
  split at hmem
  · exact absurd hmem List.not_mem_nil
  · exact Option.mem_toList.mp hmem

theorem Enlists.none_live (h : Enlists cadence pace lost) (hp : pace.bind Pace.fired? = none) :
    cadence.entries.filter cadence.isLive = [] := by
  have hlive := h.live_eq
  rw [hp, Option.toList_none, ite_self] at hlive
  exact List.map_eq_nil_iff.mp hlive

-- Nobody has to be live if the registration was lost or there is none.
theorem Enlists.of_none_live
    (hid : ∀ entry ∈ cadence.entries, entry.id < cadence.subscriptions.next)
    (hnone : cadence.entries.filter cadence.isLive = [])
    (hp : lost = true ∨ pace.bind Pace.fired? = none) : Enlists cadence pace lost where
  id_lt := hid
  live_eq := by
    rw [hnone]
    rcases hp with rfl | hp
    · rfl
    · rw [hp, Option.toList_none, ite_self, List.map_nil]

theorem Enlists.cancel {id : Nat} (h : Enlists cadence (some (.fired id)) lost) :
    Enlists (cadence.cancel id) none lost := by
  have hnext : (cadence.cancel id).subscriptions.next = cadence.subscriptions.next :=
    Subscriptions.next_cancel _ _
  refine Enlists.of_none_live ?_ ?_ (.inr rfl)
  · rw [hnext]
    exact h.id_lt
  · rw [List.filter_eq_nil_iff]
    intro entry hm hl
    obtain ⟨hl, hne⟩ := (Subscriptions.isLive_cancel _ _ _).mp hl
    exact hne (Option.some.inj (h.id_eq hm hl)).symm

-- A new registration is the only live one if there was none before.
theorem Enlists.every (h : Enlists cadence none lost) (interval : Duration) :
    Enlists (cadence.every interval ()).2 (some (.fired (cadence.every interval ()).1)) false where
  id_lt := by
    intro entry hm
    have hnext : (cadence.every interval ()).2.subscriptions.next =
        cadence.subscriptions.next + 1 :=
      Subscriptions.next_issue _
    rw [hnext]
    rcases List.mem_append.mp hm with hm | hm
    · exact Nat.lt_succ_of_lt (h.id_lt entry hm)
    · rw [List.mem_singleton.mp hm]
      exact Nat.lt_succ_self _
  live_eq := by
    let enrolled := cadence.every interval ()
    have hnone := h.none_live rfl
    have hold : cadence.entries.filter enrolled.2.isLive = [] := by
      rw [List.filter_eq_nil_iff] at hnone ⊢
      intro entry hm hl
      rcases (Subscriptions.isLive_issue _ _).mp hl with hl | he
      · exact hnone entry hm hl
      · exact absurd he (Nat.ne_of_lt (h.id_lt entry hm))
    have hnew : enrolled.2.isLive ⟨enrolled.1, interval, ()⟩ = true :=
      (Subscriptions.isLive_issue _ _).mpr (.inr rfl)
    have hentries : enrolled.2.entries = cadence.entries ++ [⟨enrolled.1, interval, ()⟩] := rfl
    rw [hentries, List.filter_append, hold, List.filter_cons_of_pos hnew]
    rfl

-- Of the entries only the live ones matter.
theorem Enlists.prune (h : Enlists cadence pace lost) :
    Enlists { cadence with entries := cadence.entries.filter cadence.isLive } pace lost where
  id_lt := fun entry hm => h.id_lt entry (List.mem_filter.mp hm).1
  live_eq := by
    refine Eq.trans (congrArg (List.map Registration.id) ?_) h.live_eq
    exact List.filter_eq_self.mpr fun entry hm => (List.mem_filter.mp hm).2

theorem Enlists.unpace {session : Session} (h : Enlists session.cadence session.pace lost) :
    Enlists session.unpace.cadence session.unpace.pace lost := by
  unfold Session.unpace
  split
  · exact h
  · rename_i id hp
    rw [hp] at h
    exact h.cancel
  · rename_i id hp
    rw [hp] at h
    exact ⟨h.id_lt, h.live_eq⟩

end Enlists

section Paced

variable {session other : Session} {past : List Starter} {lost : Bool}

-- A call without a failure before it or in it keeps who was called, if the coordinator runs.
theorem callFrame_of_ok {now : Instant} {entry : Registration Unit} {cadence : Cadence Unit}
    {world : Except Overflow Unit × Coordinator}
    (h : (callFrame now entry cadence world).world.1 = .ok ()) :
    world.1 = .ok () ∧ (world.2.lifecycle = .running →
      (callFrame now entry cadence world).verdict = .proceed) := by
  obtain ⟨before, coordinator⟩ := world
  cases before with
  | error overflow => cases h
  | ok =>
      refine ⟨rfl, fun hr => ?_⟩
      rw [callFrame] at h ⊢
      obtain hreport | ⟨overflow, hfails⟩ := coordinator.runFrame_fst_cases now hr
      · simp only [hreport, verdictOf]
      · simp only [hfails] at h
        cases h

-- The first call with a failure in it does not keep who was called.
theorem callFrame_of_failure {now : Instant} {entry : Registration Unit} {cadence : Cadence Unit}
    {world : Except Overflow Unit × Coordinator} (hbefore : world.1 = .ok ())
    (h : (callFrame now entry cadence world).world.1 ≠ .ok ()) :
    (callFrame now entry cadence world).verdict = .quit := by
  obtain ⟨before, coordinator⟩ := world
  subst hbefore
  cases hframe : (coordinator.runFrame now).1 with
  | ok report =>
      refine absurd ?_ h
      simp only [callFrame, hframe]
      rfl
  | error overflow => simp only [callFrame, hframe, verdictOf]

-- A call runs a frame and leaves the cadence alone. Only who is live is kept, and all of them are
-- if the coordinator runs and no frame fails.
theorem fireEach_callFrame (now : Instant) (entries : List (Registration Unit))
    (cadence : Cadence Unit) (world : Except Overflow Unit × Coordinator) :
    let firing := Cadence.fireEach (callFrame now) entries cadence world
    let live := entries.filter cadence.isLive
    firing.ran = live.map Registration.id ∧ firing.cadence = cadence ∧ firing.kept.Sublist live ∧
      (firing.world.1 = .ok () → world.1 = .ok () ∧
        (world.2.lifecycle = .running → firing.kept = live)) := by
  induction entries generalizing world with
  | nil => exact ⟨rfl, rfl, List.Sublist.refl [], fun h => ⟨h, fun _ => rfl⟩⟩
  | cons entry entries ih =>
      by_cases hl : cadence.isLive entry = true
      · obtain ⟨hran, hcadence, hsublist, hkept⟩ := ih (callFrame now entry cadence world).world
        rw [Cadence.fireEach, if_pos hl, List.filter_cons_of_pos hl]
        refine ⟨congrArg (entry.id :: ·) hran, hcadence, ?_, fun hsound => ?_⟩
        · dsimp only
          split
          · exact hsublist.cons_cons entry
          · exact hsublist.cons entry
        · obtain ⟨hturn, hrest⟩ := hkept hsound
          obtain ⟨hbefore, hproceed⟩ := callFrame_of_ok hturn
          refine ⟨hbefore, fun hr => ?_⟩
          dsimp only
          rw [if_pos ⟨hproceed hr, hl⟩]
          exact congrArg (entry :: ·) (hrest ((world.2.lifecycle_runFrame now).trans hr))
      · rw [Cadence.fireEach, if_neg hl, List.filter_cons_of_neg hl]
        exact ih world

-- A failure costs someone who was live.
theorem length_kept_lt (now : Instant) (entries : List (Registration Unit))
    (cadence : Cadence Unit) (world : Except Overflow Unit × Coordinator)
    (hbefore : world.1 = .ok ())
    (h : (Cadence.fireEach (callFrame now) entries cadence world).world.1 ≠ .ok ()) :
    (Cadence.fireEach (callFrame now) entries cadence world).kept.length <
      (entries.filter cadence.isLive).length := by
  induction entries generalizing world with
  | nil => exact absurd hbefore h
  | cons entry entries ih =>
      by_cases hl : cadence.isLive entry = true
      · let turn := callFrame now entry cadence world
        rw [Cadence.fireEach, if_pos hl] at h ⊢
        rw [List.filter_cons_of_pos hl, List.length_cons]
        by_cases hturn : turn.world.1 = .ok ()
        · have hrest := ih turn.world hturn h
          dsimp only
          split
          · exact Nat.succ_lt_succ hrest
          · exact Nat.lt_succ_of_lt hrest
        · have hquit : turn.verdict = .quit := callFrame_of_failure hbefore hturn
          obtain ⟨-, -, hsublist, -⟩ := fireEach_callFrame now entries cadence turn.world
          dsimp only
          rw [if_neg fun hk => by cases hquit.symm.trans hk.1]
          exact Nat.lt_succ_of_le hsublist.length_le
      · rw [Cadence.fireEach, if_neg hl] at h ⊢
        rw [List.filter_cons_of_neg hl]
        exact ih world hbefore h

theorem entries_fire_sublist (session : Session) :
    session.fire.2.cadence.entries.Sublist session.cadence.entries := by
  obtain ⟨-, hcadence, hsublist, -⟩ := fireEach_callFrame session.now session.cadence.entries
    { session.cadence with entries := [] } (.ok (), session.coordinator)
  rw [fire, Cadence.fire]
  dsimp only
  rw [hcadence, List.append_nil]
  exact hsublist.trans List.filter_sublist

theorem fire_fst_eq (session : Session) :
    session.fire.1 =
      (session.cadence.fire (callFrame session.now) (.ok (), session.coordinator)).2.2.1.map
        fun _ => session.fired := rfl

theorem fails_fire_eq_false_iff :
    session.fails .fire = false ↔
      (session.cadence.fire (callFrame session.now) (.ok (), session.coordinator)).2.2.1 =
        .ok () := by
  rw [fails, fire_fst_eq]
  cases (session.cadence.fire (callFrame session.now) (.ok (), session.coordinator)).2.2.1 with
  | ok => exact iff_of_true rfl rfl
  | error overflow => exact iff_of_false nofun nofun

theorem rate_le_one (session : Session) (starts : List Starter) (lost : Bool) :
    session.rate starts lost ≤ 1 := by
  rw [rate]
  split
  · exact Nat.le_refl 1
  · exact Nat.zero_le 1

theorem Paced.length_live (h : Paced session past lost) :
    (session.cadence.entries.filter session.cadence.isLive).length =
      session.rate past lost := by
  have hlive := congrArg List.length h.live_eq
  rw [List.length_map] at hlive
  rw [hlive, rate]
  cases lost with
  | true => rfl
  | false =>
      rw [if_neg Bool.false_ne_true, Pace.length_fired]
      cases hr : session.isRunning with
      | false =>
          rw [h.resting hr]
          rfl
      | true =>
          rw [h.driven hr]
          simp only [Starter.getD_eq_cadence_iff, true_and]

-- One fire calls the live registration, if there is one. It keeps nothing else, and that one only
-- if its frame does not fail.
theorem Paced.fire_eq (h : Paced session past lost) :
    let live := session.cadence.entries.filter session.cadence.isLive
    session.fired = live.length ∧
      session.fire.2.cadence =
        { session.cadence with entries := if session.fails .fire then [] else live } := by
  intro live
  let firing := Cadence.fireEach (callFrame session.now) session.cadence.entries
    { session.cadence with entries := [] } (.ok (), session.coordinator)
  obtain ⟨hran, hcadence, -, hsound⟩ := fireEach_callFrame session.now session.cadence.entries
    { session.cadence with entries := [] } (.ok (), session.coordinator)
  have hkept : firing.kept = if session.fails .fire then [] else live := by
    cases hf : session.fails .fire with
    | true =>
        have hfailure : firing.world.1 ≠ .ok () := fun hok =>
          Bool.false_ne_true ((fails_fire_eq_false_iff.mpr hok).symm.trans hf)
        have hlt : firing.kept.length < live.length := length_kept_lt _ _ _ _ rfl hfailure
        have hone : live.length ≤ 1 := h.length_live ▸ session.rate_le_one past lost
        exact List.length_eq_zero_iff.mp (by omega)
    | false =>
        by_cases hr : session.isRunning = true
        · exact (hsound (fails_fire_eq_false_iff.mp hf)).2 (session.isRunning_iff.mp hr).2
        · have hlive : live = [] :=
            h.none_live (by rw [h.resting (Bool.eq_false_iff.mpr hr)]; rfl)
          have hfiring := Cadence.fireEach_of_none_live (callFrame session.now)
            { session.cadence with entries := [] } (.ok (), session.coordinator) hlive
          rw [if_neg Bool.false_ne_true, hlive]
          exact congrArg Cadence.Firing.kept hfiring
  refine ⟨(congrArg List.length hran).trans (List.length_map _), ?_⟩
  rw [← hkept, fire, Cadence.fire]
  dsimp only
  rw [hcadence, List.append_nil]

theorem Paced.active_eq (h : Paced session past lost) :
    session.cadence.active = session.rate past lost := by
  rw [Cadence.active, List.countP_eq_length_filter, h.length_live]

-- A step that changes neither who drives the frames nor whether the coordinator runs.
theorem Paced.congr (h : Paced session past lost) {left : Bool}
    (henlists : Enlists other.cadence other.pace left)
    (hpace : other.pace = session.pace) (hrunning : other.isRunning = session.isRunning) :
    Paced other past left where
  toEnlists := henlists
  resting := by
    rw [hrunning, hpace]
    exact h.resting
  driven := by
    rw [hrunning, hpace]
    exact h.driven

theorem Paced.rest (henlists : Enlists other.cadence other.pace lost) (hpace : other.pace = none)
    (hrest : other.isRunning = false) : Paced other past lost where
  toEnlists := henlists
  resting := fun _ => hpace
  driven := fun hr => absurd hr (Bool.eq_false_iff.mp hrest)

-- After a start that is not ignored, what was known before matters no more.
theorem paced_of_started {starter : Starter} (henlists : Enlists other.cadence other.pace false)
    (hrunning : other.isRunning = true)
    (hstarter : (other.pace.map Pace.starter).getD .hand = starter) :
    Paced other (past ++ [starter]) false where
  toEnlists := henlists
  resting := fun hr => absurd hrunning (Bool.eq_false_iff.mp hr)
  driven := by
    rw [List.getLast?_concat]
    exact fun _ => hstarter

theorem Paced.start (h : Paced session past lost) (starter : Starter) :
    Paced (session.step starter.step) (past ++ session.started starter.step)
      (session.lose starter.step lost) := by
  rcases session.start_cases with ⟨hsame, hne, hcadence, htimer⟩ | ⟨hreleased, hl, hs⟩
  · have hignored : session.started starter.step = [] := by
      cases starter with
      | hand => exact if_neg hne
      | cadence => exact if_neg (hcadence ▸ hne)
      | timers => exact if_neg (htimer ▸ hne)
    have hstep : session.step starter.step = session := by
      cases starter with
      | hand => exact hsame
      | cadence => exact (congrArg Prod.snd hcadence).trans hsame
      | timers => exact (congrArg Prod.snd htimer).trans hsame
    have hsound : session.fails starter.step = false := by cases starter <;> rfl
    rw [lose, hignored, hstep, hsound, List.append_nil, Bool.or_false]
    exact h
  · have hpace := h.resting (session.isRunning_eq_false hl)
    have henlists := h.toEnlists
    rw [hpace] at henlists
    have hlifecycle := session.coordinator.lifecycle_start
    cases starter with
    | hand =>
        rw [lose, Starter.step, step, started, hs, if_pos rfl]
        refine paced_of_started ?_ ((isRunning_iff _).mpr ⟨hreleased, hlifecycle⟩) ?_
        · rw [hpace]
          exact .of_none_live henlists.id_lt (henlists.none_live rfl) (.inr rfl)
        · rw [hpace]
          rfl
    | cadence =>
        rw [lose, Starter.step, step, started, startOnCadence, hs, if_pos rfl]
        exact paced_of_started (henlists.every _)
          ((isRunning_iff _).mpr ⟨hreleased, hlifecycle⟩) rfl
    | timers =>
        rw [lose, Starter.step, step, started, startOnTimer, hs, if_pos rfl]
        exact paced_of_started (.of_none_live henlists.id_lt (henlists.none_live rfl) (.inr rfl))
          ((isRunning_iff _).mpr ⟨hreleased, hlifecycle⟩) rfl

theorem Paced.stop (h : Paced session past lost) : Paced session.stop.2 past lost := by
  by_cases hr : session.isRunning = true
  · have hrest := session.isRunning_stop
    rw [session.stop_of_running hr] at hrest ⊢
    exact Paced.rest (Enlists.unpace h.toEnlists) (pace_unpace _) hrest
  · rw [session.stop_of_resting (Bool.eq_false_iff.mpr hr)]
    exact h

theorem Paced.release (h : Paced session past lost) : Paced session.release past lost :=
  Paced.rest (Enlists.unpace h.toEnlists) session.pace_unpace
    (decide_eq_false fun hr => nomatch hr.1)

theorem Paced.fire (h : Paced session past lost) :
    Paced session.fire.2 past (lost || session.fails .fire) := by
  refine h.congr ?_ rfl (isRunning_congr rfl ?_)
  · rw [h.fire_eq.2]
    cases session.fails .fire with
    | true =>
        exact .of_none_live (List.forall_mem_nil _) rfl (.inl (Bool.or_true lost))
    | false =>
        rw [Bool.or_false]
        exact h.prune
  · exact session.lifecycle_of_calls .fire (by simp [calls]) (by simp [calls])

-- What is asked of the coordinator alone.
theorem Paced.act (h : Paced session past lost) {α : Type}
    (f : Coordinator → Instant → α × Coordinator)
    (hf : ∀ coordinator now, (f coordinator now).2.lifecycle = coordinator.lifecycle) :
    Paced (session.act f).2 past lost := by
  cases hr : session.released with
  | true =>
      rw [session.act_of_released _ hr]
      exact h
  | false =>
      rw [session.act_of_held _ hr]
      exact h.congr h.toEnlists rfl (isRunning_congr rfl (hf _ _))

theorem Paced.step (h : Paced session past lost) (step : Step) :
    Paced (session.step step) (past ++ session.started step) (session.lose step lost) := by
  have hkeep : ∀ {other : Session}, other.cadence = session.cadence → other.pace = session.pace →
      other.released = session.released →
      other.coordinator.lifecycle = session.coordinator.lifecycle → Paced other past lost := by
    intro other hcadence hpace hreleased hl
    refine h.congr ?_ hpace (isRunning_congr hreleased hl)
    rw [hcadence, hpace]
    exact h.toEnlists
  have hquiet : ∀ {step : Step}, session.started step = [] →
      Paced (session.step step) past (lost || session.fails step) →
      Paced (session.step step) (past ++ session.started step) (session.lose step lost) := by
    intro step hnone hpaced
    rw [lose, hnone, List.append_nil]
    exact hpaced
  have hsound : ∀ {step : Step}, session.started step = [] → session.fails step = false →
      Paced (session.step step) past lost →
      Paced (session.step step) (past ++ session.started step) (session.lose step lost) := by
    intro step hnone hf hpaced
    refine hquiet hnone ?_
    rw [hf, Bool.or_false]
    exact hpaced
  cases step with
  | start => exact h.start .hand
  | startOnCadence => exact h.start .cadence
  | startOnTimer => exact h.start .timers
  | fire => exact hquiet rfl h.fire
  | stop => exact hsound rfl rfl h.stop
  | release => exact hsound rfl rfl h.release
  | tick => exact hsound rfl rfl (h.act Coordinator.runFrame Coordinator.lifecycle_runFrame)
  | flush => exact hsound rfl rfl (h.act Coordinator.flush Coordinator.lifecycle_flush)
  | ingest | ingestAll | advance | advanceTimers | scrollTo | scrollToBottom | setFollowTail =>
      refine hsound rfl rfl (hkeep rfl rfl rfl (session.lifecycle_of_calls _ ?_ ?_)) <;>
        simp [calls]
  | subscribe =>
      refine hsound rfl rfl ?_
      rw [Session.step, subscribe]
      split
      · exact h
      · exact hkeep rfl rfl rfl rfl
  | drain reader =>
      refine hsound rfl rfl ?_
      rw [Session.step, drain]
      split
      · exact h
      · exact hkeep rfl rfl rfl rfl

end Paced

section Run

variable (coordinator : Coordinator) (now : Instant) (steps : List Step)

theorem paced_new : Paced (Session.new coordinator now) [] false where
  id_lt := by simp [Session.new, Cadence.empty]
  live_eq := rfl
  resting := fun _ => rfl
  driven := fun _ => rfl

theorem paced_run :
    let session := Session.new coordinator now
    Paced (session.run steps) (session.starts steps) (session.lost steps) := by
  intro session
  induction steps using List.reverseRecOn with
  | nil => exact paced_new coordinator now
  | append_singleton steps last ih =>
      rw [lost_concat, starts, trace_concat, run, List.foldl_append]
      exact ih.step last

end Run

end Session

end PacedFeed
