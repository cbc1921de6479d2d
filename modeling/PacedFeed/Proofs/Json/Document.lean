import PacedFeed.Json
import PacedFeed.Proofs.Json.Token

-- A document that is written out is read back as the same document.

namespace PacedFeed.Json

open Token

-- A document that can be written: all of its numbers can.
def WellFormed (document : Json) : Prop :=
  ∀ token ∈ document.tokens, token.WellFormed

theorem itemTokens_cons (item next : Json) (items : List Json) :
    itemTokens (item :: next :: items) = item.tokens ++ .comma :: itemTokens (next :: items) :=
  rfl

theorem memberTokens_cons (name : Option String) (value : Json) (next : Option String × Json)
    (members : List (Option String × Json)) :
    memberTokens ((name, value) :: next :: members) =
      .string name :: .colon :: (value.tokens ++ .comma :: memberTokens (next :: members)) :=
  rfl

theorem wellFormed_of_tokens_eq {document : Json} {token : Token} (h : document.tokens = [token])
    (ht : token.WellFormed) : document.WellFormed := by
  intro other hm
  rw [h] at hm
  rw [List.mem_singleton.mp hm]
  exact ht

theorem wellFormed_memberTokens {members : List (Option String × Json)}
    (h : ∀ member ∈ members, member.2.WellFormed) :
    ∀ token ∈ memberTokens members, token.WellFormed := by
  induction members with
  | nil => exact fun _ hm => absurd hm List.not_mem_nil
  | cons member members ih =>
      obtain ⟨name, value⟩ := member
      have hvalue : value.WellFormed := h _ List.mem_cons_self
      have hmembers := ih fun member hm => h member (List.mem_cons_of_mem _ hm)
      cases members with
      | nil =>
          intro token hm
          rcases List.mem_cons.mp hm with rfl | hm
          · trivial
          rcases List.mem_cons.mp hm with rfl | hm
          · trivial
          exact hvalue token hm
      | cons next members =>
          intro token hm
          rw [memberTokens_cons] at hm
          rcases List.mem_cons.mp hm with rfl | hm
          · trivial
          rcases List.mem_cons.mp hm with rfl | hm
          · trivial
          rcases List.mem_append.mp hm with hm | hm
          · exact hvalue token hm
          rcases List.mem_cons.mp hm with rfl | hm
          · trivial
          exact hmembers token hm

theorem wellFormed_object {members : List (Option String × Json)}
    (h : ∀ member ∈ members, member.2.WellFormed) : (Json.object members).WellFormed := by
  intro token hm
  rw [tokens, List.cons_append, List.mem_cons, List.mem_append, List.mem_singleton] at hm
  rcases hm with rfl | hm | rfl
  · trivial
  · exact wellFormed_memberTokens h token hm
  · trivial

section Separated

variable {rest : List Token}

theorem separated_cons {token : Token} (ht : token.isWord = false) (hr : Separated rest) :
    Separated (token :: rest) := by
  cases rest with
  | nil => exact .singleton token
  | cons next rest => exact .cons_cons (fun h => by simp [ht] at h) hr

theorem separated_value {token : Token} (hr : Separated rest)
    (hh : ∀ first ∈ rest.head?, first.isWord = false) : Separated (token :: rest) := by
  cases rest with
  | nil => exact .singleton token
  | cons next rest =>
      have hnext : next.isWord = false := hh next rfl
      exact .cons_cons (fun h => by simp [hnext] at h) hr

mutual

-- What stands between values, and between names and values, is no word.
theorem separated_tokens : ∀ (document : Json) {rest : List Token}, Separated rest →
    (∀ first ∈ rest.head?, first.isWord = false) → Separated (document.tokens ++ rest)
  | .null, _, hr, hh | .bool _, _, hr, hh | .number _, _, hr, hh | .string _, _, hr, hh =>
    separated_value hr hh
  | .array items, rest, hr, _ => by
      rw [tokens, List.cons_append, List.cons_append, List.append_assoc]
      exact separated_cons rfl (separated_items items (separated_cons rfl hr) (by simp [isWord]))
  | .object members, rest, hr, _ => by
      rw [tokens, List.cons_append, List.cons_append, List.append_assoc]
      exact separated_cons rfl
        (separated_members members (separated_cons rfl hr) (by simp [isWord]))

theorem separated_items : ∀ (items : List Json) {rest : List Token}, Separated rest →
    (∀ first ∈ rest.head?, first.isWord = false) → Separated (itemTokens items ++ rest)
  | [], _, hr, _ => hr
  | [item], _, hr, hh => separated_tokens item hr hh
  | item :: next :: items, rest, hr, hh => by
      rw [itemTokens_cons, List.append_assoc, List.cons_append]
      exact separated_tokens item (separated_cons rfl (separated_items (next :: items) hr hh))
        (by simp [isWord])

theorem separated_members : ∀ (members : List (Option String × Json)) {rest : List Token},
    Separated rest → (∀ first ∈ rest.head?, first.isWord = false) →
      Separated (memberTokens members ++ rest)
  | [], _, hr, _ => hr
  | [(name, value)], rest, hr, hh =>
    separated_cons rfl (separated_cons rfl (separated_tokens value hr hh))
  | (name, value) :: next :: members, rest, hr, hh => by
      rw [memberTokens_cons, List.cons_append, List.cons_append, List.append_assoc,
        List.cons_append]
      exact separated_cons rfl (separated_cons rfl (separated_tokens value
        (separated_cons rfl (separated_members (next :: members) hr hh)) (by simp [isWord])))

end

end Separated

section Reader

open Reader

-- The first item of an array is read like any other.
theorem run_atFirstItem {token : Token} (h : token ≠ .closeArray) (tokens : List Token)
    (outer : List Open) :
    run (token :: tokens) (.atFirstItem outer) =
      run (token :: tokens) (.atValue (.array [] :: outer)) := by
  have hstep : Reader.step token (.atFirstItem outer) = begin token (.array [] :: outer) := if_neg h
  rw [run, run, hstep]
  rfl

theorem itemTokens_eq_cons (item : Json) (items : List Json) :
    ∃ token tokens, itemTokens (item :: items) = token :: tokens ∧ token ≠ .closeArray := by
  have hitem : ∃ token tokens, item.tokens = token :: tokens ∧ token ≠ .closeArray := by
    cases item <;> exact ⟨_, _, rfl, by simp⟩
  obtain ⟨token, tokens, htokens, hne⟩ := hitem
  cases items with
  | nil => exact ⟨token, tokens, htokens, hne⟩
  | cons next items => exact ⟨token, _, by rw [itemTokens_cons, htokens]; rfl, hne⟩

mutual

-- The tokens of a value are read as the value, wherever a value may stand.
theorem run_tokens : ∀ (document : Json) (outer : List Open) (rest : List Token),
    run (document.tokens ++ rest) (.atValue outer) = (place document outer).bind (run rest)
  | .null, _, _ | .bool _, _, _ | .number _, _, _ | .string _, _, _ => rfl
  | .array [], _, _ | .object [], _, _ => rfl
  | .array (item :: items), outer, rest => by
      obtain ⟨token, tokens, htokens, hne⟩ := itemTokens_eq_cons item items
      have hfirst : run ((Json.array (item :: items)).tokens ++ rest) (.atValue outer) =
          run (itemTokens (item :: items) ++ .closeArray :: rest)
            (.atValue (.array [] :: outer)) := by
        rw [Json.tokens, List.cons_append, List.cons_append, List.append_assoc, htokens]
        exact run_atFirstItem hne _ outer
      rw [hfirst]
      exact run_items (item :: items) (List.cons_ne_nil _ _) [] outer rest
  | .object (member :: members), outer, rest => by
      have hfirst : run ((Json.object (member :: members)).tokens ++ rest) (.atValue outer) =
          run (memberTokens (member :: members) ++ .closeObject :: rest) (.atName [] outer) := by
        rw [Json.tokens, List.cons_append, List.cons_append, List.append_assoc]
        cases members <;> rfl
      rw [hfirst]
      exact run_members (member :: members) (List.cons_ne_nil _ _) [] outer rest

theorem run_items : ∀ (items : List Json), items ≠ [] → ∀ (read : List Json) (outer : List Open)
    (rest : List Token),
    run (itemTokens items ++ .closeArray :: rest) (.atValue (.array read :: outer)) =
      (place (.array (read.reverse ++ items)) outer).bind (run rest)
  | [], h, _, _, _ => absurd rfl h
  | [item], _, read, outer, rest => by
      rw [itemTokens, run_tokens item, ← List.reverse_cons]
      rfl
  | item :: next :: items, _, read, outer, rest => by
      have hitems := run_items (next :: items) (List.cons_ne_nil _ _) (item :: read) outer rest
      rw [List.reverse_cons, List.append_assoc] at hitems
      rw [itemTokens_cons, List.append_assoc, run_tokens item]
      exact hitems

theorem run_members : ∀ (members : List (Option String × Json)), members ≠ [] →
    ∀ (read : List (Option String × Json)) (outer : List Open) (rest : List Token),
    run (memberTokens members ++ .closeObject :: rest) (.atName read outer) =
      (place (.object (read.reverse ++ members)) outer).bind (run rest)
  | [], h, _, _, _ => absurd rfl h
  | [(name, value)], _, read, outer, rest => by
      have hvalue := run_tokens value (.member read name :: outer) (.closeObject :: rest)
      rw [← List.reverse_cons]
      exact hvalue
  | (name, value) :: next :: members, _, read, outer, rest => by
      have hvalue := run_tokens value (.member read name :: outer)
        (.comma :: (memberTokens (next :: members) ++ .closeObject :: rest))
      have hmembers := run_members (next :: members) (List.cons_ne_nil _ _)
        ((name, value) :: read) outer rest
      rw [List.reverse_cons, List.append_assoc] at hmembers
      rw [memberTokens_cons, List.cons_append, List.cons_append, List.append_assoc]
      exact hvalue.trans hmembers

end

theorem ofTokens?_tokens (document : Json) : ofTokens? document.tokens = some document := by
  have hrun := run_tokens document [] []
  rw [List.append_nil] at hrun
  rw [ofTokens?, hrun]
  rfl

end Reader

-- A text that is written from a document is read as this document.
theorem parse?_render {document : Json} (h : document.WellFormed) :
    parse? document.render = some document := by
  have hseparated := separated_tokens document .nil (by simp)
  rw [List.append_nil] at hseparated
  rw [parse?, render, String.toList_ofList, scan?_texts h hseparated]
  exact ofTokens?_tokens document

end PacedFeed.Json
