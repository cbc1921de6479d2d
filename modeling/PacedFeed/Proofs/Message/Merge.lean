import Mathlib.Data.List.Basic
import PacedFeed.Message

-- Merging in parts and merging at once come to the same.

namespace PacedFeed.Message

theorem continues_extend (message earlier : Message) (content : String) :
    message.continues { earlier with content := content } = message.continues earlier := rfl

theorem extend_continues (message earlier : Message) (content : String) :
    continues { message with content := content } earlier = message.continues earlier := rfl

theorem continues_trans {first second third : Message} (h : second.continues first = true)
    (h' : third.continues second = true) : third.continues first = true := by
  simp only [continues, Bool.and_eq_true, decide_eq_true_eq] at h h' ⊢
  exact ⟨⟨h.1.1, h'.1.2⟩, h.2.trans h'.2⟩

theorem mergeFrom_of_continues {run message : Message} (h : message.continues run = true)
    (rest : List Message) :
    mergeFrom run (message :: rest) =
      mergeFrom { run with content := run.content ++ message.content } rest := by
  simp only [mergeFrom, h, ite_true]

theorem mergeFrom_of_not_continues {run message : Message} (h : ¬message.continues run = true)
    (rest : List Message) : mergeFrom run (message :: rest) = run :: mergeFrom message rest := by
  simp only [mergeFrom, h, if_false, Bool.false_eq_true]

-- A merged run keeps everything of its first message but the content.
theorem mergeFrom_eq_cons (run : Message) (messages : List Message) :
    ∃ content rest, mergeFrom run messages = { run with content := content } :: rest := by
  induction messages generalizing run with
  | nil => exact ⟨run.content, [], rfl⟩
  | cons message messages ih =>
      by_cases h : message.continues run = true
      · rw [mergeFrom_of_continues h]
        exact ih { run with content := run.content ++ message.content }
      · rw [mergeFrom_of_not_continues h]
        exact ⟨run.content, _, rfl⟩

theorem mergeRuns_mergeFrom_append (run : Message) (messages others : List Message) :
    mergeRuns (mergeFrom run messages ++ others) = mergeFrom run (messages ++ others) := by
  induction messages generalizing run with
  | nil => rfl
  | cons message messages ih =>
      by_cases h : message.continues run = true
      · rw [mergeFrom_of_continues h, ih, List.cons_append, mergeFrom_of_continues h]
      · rw [mergeFrom_of_not_continues h, List.cons_append, List.cons_append,
          mergeFrom_of_not_continues h, ← ih]
        -- the run behind this one begins with a message that does not continue it either
        obtain ⟨content, rest, he⟩ := mergeFrom_eq_cons message messages
        rw [he]
        exact mergeFrom_of_not_continues (by rwa [extend_continues]) _

-- It does not matter whether what follows a run was merged before.
theorem mergeFrom_mergeFrom (run first : Message) (messages : List Message) :
    mergeFrom run (mergeFrom first messages) = mergeFrom run (first :: messages) := by
  induction messages generalizing run first with
  | nil => rfl
  | cons message messages ih =>
      by_cases hm : message.continues first = true
      · rw [mergeFrom_of_continues hm, ih]
        by_cases hf : first.continues run = true
        · have hr := continues_trans hf hm
          rw [mergeFrom_of_continues (by rwa [extend_continues]), mergeFrom_of_continues hf,
            mergeFrom_of_continues (by rwa [continues_extend]), String.append_assoc]
        · rw [mergeFrom_of_not_continues (by rwa [extend_continues]),
            mergeFrom_of_not_continues hf, mergeFrom_of_continues hm]
      · rw [mergeFrom_of_not_continues hm]
        by_cases hf : first.continues run = true
        · rw [mergeFrom_of_continues hf, mergeFrom_of_continues hf, ih]
        · rw [mergeFrom_of_not_continues hf, mergeFrom_of_not_continues hf, ih,
            mergeFrom_of_not_continues hm]

theorem mergeRuns_mergeRuns_append (messages others : List Message) :
    mergeRuns (mergeRuns messages ++ others) = mergeRuns (messages ++ others) := by
  cases messages with
  | nil => rfl
  | cons message messages => exact mergeRuns_mergeFrom_append message messages others

theorem mergeFrom_append_mergeRuns (run : Message) (messages others : List Message) :
    mergeFrom run (messages ++ mergeRuns others) = mergeFrom run (messages ++ others) := by
  induction messages generalizing run with
  | nil =>
      cases others with
      | nil => rfl
      | cons message others => exact mergeFrom_mergeFrom run message others
  | cons message messages ih =>
      simp only [List.cons_append, mergeFrom, ih]

theorem mergeRuns_append_mergeRuns (messages others : List Message) :
    mergeRuns (messages ++ mergeRuns others) = mergeRuns (messages ++ others) := by
  cases messages with
  | nil => simpa using mergeRuns_mergeRuns_append others []
  | cons message messages => exact mergeFrom_append_mergeRuns message messages others

-- Batches that were merged one by one merge to the same as what went into them.
theorem mergeRuns_flatMap_append (segments : List (List Message)) (others : List Message) :
    mergeRuns (segments.flatMap mergeRuns ++ others) = mergeRuns (segments.flatten ++ others) := by
  induction segments with
  | nil => rfl
  | cons segment segments ih =>
      rw [List.flatMap_cons, List.flatten_cons, List.append_assoc, List.append_assoc,
        mergeRuns_mergeRuns_append, ← mergeRuns_append_mergeRuns, ih, mergeRuns_append_mergeRuns]

theorem length_mergeFrom_le (run : Message) (messages : List Message) :
    (mergeFrom run messages).length ≤ messages.length + 1 := by
  induction messages generalizing run with
  | nil => exact Nat.le_refl 1
  | cons message messages ih =>
      by_cases h : message.continues run = true
      · rw [mergeFrom_of_continues h]
        exact Nat.le_succ_of_le (ih _)
      · rw [mergeFrom_of_not_continues h, List.length_cons, List.length_cons]
        exact Nat.succ_le_succ (ih message)

theorem length_mergeRuns_le (messages : List Message) :
    (mergeRuns messages).length ≤ messages.length := by
  cases messages with
  | nil => exact Nat.le_refl 0
  | cons message messages => exact length_mergeFrom_le message messages

theorem mergeRuns_eq_nil_iff (messages : List Message) :
    mergeRuns messages = [] ↔ messages = [] := by
  cases messages with
  | nil => simp [mergeRuns]
  | cons message messages =>
      obtain ⟨content, rest, he⟩ := mergeFrom_eq_cons message messages
      simp [mergeRuns, he]

end PacedFeed.Message
