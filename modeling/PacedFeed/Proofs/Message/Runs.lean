import Mathlib.Data.List.Forall2
import Mathlib.Data.List.SplitBy
import PacedFeed.Proofs.Message.Merge

-- Merging makes one message of every maximal run.

namespace PacedFeed.Message

-- Messages that may become one: chunks of one origin, or a control message alone.
inductive IsRun : List Message → Prop
  | chunks (origin : Origin) (first : Message) (rest : List Message)
      (h : ∀ message ∈ first :: rest, message.kind = .chunk ∧ message.origin = origin) :
      IsRun (first :: rest)
  | control (message : Message) (h : message.kind = .control) : IsRun [message]

-- Consecutive runs that make up a list, none of which goes on in the next one.
structure Runs (runs : List (List Message)) (messages : List Message) : Prop where
  flatten : runs.flatten = messages
  isRun : ∀ run ∈ runs, IsRun run
  maximal : runs.IsChain fun first second => ¬IsRun (first ++ second)

-- The message that stands for a run is the first one with the content of all.
inductive Joins : List Message → Message → Prop
  | intro (first : Message) (rest : List Message) :
      Joins (first :: rest)
        { first with content := String.join ((first :: rest).map Message.content) }

section Runs

variable {run first second messages : List Message} {runs : List (List Message)}

theorem continues_iff {message earlier : Message} :
    message.continues earlier = true ↔
      earlier.kind = .chunk ∧ message.kind = .chunk ∧ earlier.origin = message.origin := by
  simp [continues, isMergeable, and_assoc]

theorem IsRun.ne_nil (h : IsRun run) : run ≠ [] := by
  cases h with
  | chunks | control => exact List.cons_ne_nil _ _

-- In a run every message continues the one before it.
theorem isRun_iff_isChain :
    IsRun run ↔
      run ≠ [] ∧ run.IsChain fun earlier message => message.continues earlier = true := by
  constructor
  · intro h
    refine ⟨h.ne_nil, ?_⟩
    cases h with
    | chunks origin first rest h =>
        refine (List.pairwise_of_forall_mem_list fun earlier he message hm => ?_).isChain
        obtain ⟨hchunk, horigin⟩ := h earlier he
        obtain ⟨hchunk', horigin'⟩ := h message hm
        exact continues_iff.mpr ⟨hchunk, hchunk', horigin.trans horigin'.symm⟩
    | control => exact List.isChain_singleton _
  · rintro ⟨hne, hchain⟩
    induction run with
    | nil => exact absurd rfl hne
    | cons first rest ih =>
        cases rest with
        | nil =>
            cases hkind : first.kind with
            | chunk => exact .chunks first.origin first [] (by simp [hkind])
            | control => exact .control first hkind
        | cons second rest =>
            obtain ⟨hcontinues, hrest⟩ := List.isChain_cons_cons.mp hchain
            obtain ⟨hfirst, hsecond, horigin⟩ := continues_iff.mp hcontinues
            cases ih (List.cons_ne_nil _ _) hrest with
            | chunks origin _ _ h =>
                refine .chunks first.origin first (second :: rest) ?_
                have hsame := (h second List.mem_cons_self).2
                simpa [hfirst, horigin, hsame] using h
            | control _ h => simp [h] at hsecond

-- Two runs in a row are one unless the second one begins with a message that does not continue
-- the first.
theorem isRun_append_iff (h : IsRun first) (h' : IsRun second) :
    IsRun (first ++ second) ↔
      ∀ earlier ∈ first.getLast?, ∀ message ∈ second.head?, message.continues earlier = true := by
  have hne : first ++ second ≠ [] := List.append_ne_nil_of_left_ne_nil h.ne_nil second
  have hfirst := (isRun_iff_isChain.mp h).2
  have hsecond := (isRun_iff_isChain.mp h').2
  simp [isRun_iff_isChain, List.isChain_append, hne, hfirst, hsecond]

-- A list has one division into maximal runs.
theorem runs_iff_splitBy :
    Runs runs messages ↔
      messages.splitBy (fun earlier message => message.continues earlier) = runs := by
  rw [List.splitBy_eq_iff]
  -- where two runs meet, to be no run together is to be cut between their ends
  have hcut : (∀ run ∈ runs, IsRun run) →
      ((runs.IsChain fun first second => ¬IsRun (first ++ second)) ↔
        runs.IsChain fun first second =>
          ∃ hf hs, (second.head hs).continues (first.getLast hf) = false) := by
    intro hruns
    refine List.IsChain.iff_of_mem_imp fun first second hf hs => ?_
    have hfirst := hruns first hf
    have hsecond := hruns second hs
    rw [isRun_append_iff hfirst hsecond]
    simp [List.getLast?_eq_some_getLast hfirst.ne_nil, List.head?_eq_some_head hsecond.ne_nil,
      hfirst.ne_nil, hsecond.ne_nil]
  constructor
  · intro h
    refine ⟨h.flatten.symm, fun hnil => (h.isRun [] hnil).ne_nil rfl, fun run hm => ?_,
      (hcut h.isRun).mp h.maximal⟩
    exact (isRun_iff_isChain.mp (h.isRun run hm)).2
  · rintro ⟨hflatten, hnil, hchain, hends⟩
    have hruns : ∀ run ∈ runs, IsRun run := fun run hm =>
      isRun_iff_isChain.mpr ⟨fun he => hnil (he ▸ hm), hchain run hm⟩
    exact ⟨hflatten.symm, hruns, (hcut hruns).mpr hends⟩

theorem runs_splitBy (messages : List Message) :
    Runs (messages.splitBy fun earlier message => message.continues earlier) messages :=
  runs_iff_splitBy.mpr rfl

-- Whatever continues the first message of a run goes on with all of it.
theorem IsRun.append {start next : Message} {rest others : List Message}
    (h : IsRun (start :: rest)) (h' : IsRun (next :: others))
    (hc : next.continues start = true) : IsRun (start :: rest ++ next :: others) := by
  obtain ⟨hstart, hnext, horigin⟩ := continues_iff.mp hc
  cases h with
  | control _ hcontrol => simp [hcontrol] at hstart
  | chunks origin _ _ hrun =>
      cases h' with
      | control _ hcontrol => simp [hcontrol] at hnext
      | chunks origin' _ _ hrun' =>
          have hsame : origin' = origin := by
            rw [← (hrun start List.mem_cons_self).2, horigin,
              (hrun' next List.mem_cons_self).2]
          refine .chunks origin start (rest ++ next :: others) fun message hm => ?_
          rw [← List.cons_append] at hm
          rcases List.mem_append.mp hm with hm | hm
          · exact hrun message hm
          · exact hsame ▸ hrun' message hm

theorem IsRun.continues {start : Message} {rest : List Message} (h : IsRun (start :: rest)) :
    ∀ message ∈ rest, message.continues start = true := by
  intro message hm
  cases h with
  | control => cases hm
  | chunks origin _ _ hrun =>
      obtain ⟨hstart, horigin⟩ := hrun start List.mem_cons_self
      obtain ⟨hchunk, horigin'⟩ := hrun message (List.mem_cons_of_mem _ hm)
      exact continues_iff.mpr ⟨hstart, hchunk, horigin.trans horigin'.symm⟩

theorem mergeFrom_append (start : Message) {rest : List Message} (others : List Message)
    (h : ∀ message ∈ rest, message.continues start = true) :
    mergeFrom start (rest ++ others) =
      mergeFrom { start with content := String.join ((start :: rest).map Message.content) }
        others := by
  induction rest generalizing start with
  | nil => simp [String.join_cons]
  | cons message rest ih =>
      rw [List.forall_mem_cons] at h
      have hrest := ih { start with content := start.content ++ message.content } h.2
      rw [List.cons_append, mergeFrom_of_continues h.1, hrest]
      simp only [List.map_cons, String.join_cons, String.append_assoc]

theorem Runs.joins (h : Runs runs messages) : List.Forall₂ Joins runs (mergeRuns messages) := by
  obtain ⟨rfl, hruns, hmaximal⟩ := h
  induction runs with
  | nil => exact .nil
  | cons run runs ih =>
      rw [List.forall_mem_cons] at hruns
      obtain ⟨start, rest, rfl⟩ := List.exists_cons_of_ne_nil hruns.1.ne_nil
      have hrest := ih hruns.2 hmaximal.tail
      rw [List.flatten_cons, List.cons_append, mergeRuns, mergeFrom_append start _ hruns.1.continues]
      cases runs with
      | nil => exact .cons (.intro start rest) .nil
      | cons second runs =>
          have hsecond := hruns.2 second List.mem_cons_self
          obtain ⟨next, others, rfl⟩ := List.exists_cons_of_ne_nil hsecond.ne_nil
          have hnot : ¬next.continues start = true := fun hc =>
            (List.isChain_cons_cons.mp hmaximal).1 (hruns.1.append hsecond hc)
          rw [List.flatten_cons, List.cons_append,
            mergeFrom_of_not_continues (by rwa [continues_extend])]
          exact .cons (.intro start rest) hrest

end Runs

-- After merging nothing is left to merge.
theorem isChain_mergeFrom (run : Message) (messages : List Message) :
    (mergeFrom run messages).IsChain fun earlier message => ¬message.continues earlier = true := by
  induction messages generalizing run with
  | nil => exact List.isChain_singleton run
  | cons message messages ih =>
      by_cases h : message.continues run = true
      · rw [mergeFrom_of_continues h]
        exact ih _
      · rw [mergeFrom_of_not_continues h]
        have hrest := ih message
        obtain ⟨content, rest, he⟩ := mergeFrom_eq_cons message messages
        rw [he] at hrest ⊢
        exact List.isChain_cons_cons.mpr ⟨by rwa [extend_continues], hrest⟩

theorem isChain_mergeRuns (messages : List Message) :
    (mergeRuns messages).IsChain fun earlier message => ¬message.continues earlier = true := by
  cases messages with
  | nil => exact List.isChain_nil
  | cons message messages => exact isChain_mergeFrom message messages

theorem join_content_mergeFrom (run : Message) (messages : List Message) :
    String.join ((mergeFrom run messages).map Message.content) =
      String.join ((run :: messages).map Message.content) := by
  induction messages generalizing run with
  | nil => rfl
  | cons message messages ih =>
      by_cases h : message.continues run = true
      · rw [mergeFrom_of_continues h, ih]
        simp only [List.map_cons, String.join_cons, String.append_assoc]
      · rw [mergeFrom_of_not_continues h, List.map_cons, String.join_cons, ih message]
        simp only [List.map_cons, String.join_cons]

theorem join_content_mergeRuns (messages : List Message) :
    String.join ((mergeRuns messages).map Message.content) =
      String.join (messages.map Message.content) := by
  cases messages with
  | nil => rfl
  | cons message messages => exact join_content_mergeFrom message messages

-- Only chunks go into others or have others go into them.
theorem filter_control_mergeFrom (run : Message) (messages : List Message) :
    (mergeFrom run messages).filter (·.kind = .control) =
      (run :: messages).filter (·.kind = .control) := by
  induction messages generalizing run with
  | nil => rfl
  | cons message messages ih =>
      by_cases h : message.continues run = true
      · obtain ⟨hrun, hmessage, -⟩ := continues_iff.mp h
        rw [mergeFrom_of_continues h, ih]
        simp [hrun, hmessage]
      · simp only [mergeFrom_of_not_continues h, List.filter_cons, ih message]

theorem filter_control_mergeRuns (messages : List Message) :
    (mergeRuns messages).filter (·.kind = .control) =
      messages.filter (·.kind = .control) := by
  cases messages with
  | nil => rfl
  | cons message messages => exact filter_control_mergeFrom message messages

-- Merging makes one message of every maximal run and keeps control messages as they are. Nothing
-- is left to merge, no content is lost, and it does not matter where messages were cut to be merged
-- in parts before.
theorem mergeRuns_by_runs (messages others : List Message) (segments : List (List Message)) :
    mergeRuns (mergeRuns messages ++ mergeRuns others) = mergeRuns (messages ++ others) ∧
    mergeRuns (mergeRuns messages) = mergeRuns messages ∧
    mergeRuns (segments.flatMap mergeRuns) = mergeRuns segments.flatten ∧
    (∃ runs, (∀ division, Runs division messages ↔ division = runs) ∧
      List.Forall₂ Joins runs (mergeRuns messages)) ∧
    (mergeRuns messages).filter (·.kind = .control) = messages.filter (·.kind = .control) ∧
    ((mergeRuns messages).IsChain fun first second =>
      ¬(first.isMergeable = true ∧ second.isMergeable = true ∧ first.origin = second.origin)) ∧
    String.join ((mergeRuns messages).map Message.content) =
      String.join (messages.map Message.content) := by
  refine ⟨?_, ?_, ?_, ?_, filter_control_mergeRuns messages, ?_, join_content_mergeRuns messages⟩
  · rw [mergeRuns_mergeRuns_append, mergeRuns_append_mergeRuns]
  · simpa using mergeRuns_mergeRuns_append messages []
  · simpa using mergeRuns_flatMap_append segments []
  · refine ⟨_, fun division => ?_, (runs_splitBy messages).joins⟩
    rw [runs_iff_splitBy, eq_comm]
  · refine (isChain_mergeRuns messages).imp fun first second h hmergeable => h ?_
    simpa [continues, and_assoc] using hmergeable

example :
    let message : MessageKind → String → Message := fun kind text =>
      ⟨text, .assistant, kind, text, 0, []⟩
    let chunk := message .chunk
    mergeRuns [chunk "a", chunk "b", message .control "c", chunk "d"] =
      [{ chunk "a" with content := "ab" }, message .control "c", chunk "d"] := by
  decide

end PacedFeed.Message
