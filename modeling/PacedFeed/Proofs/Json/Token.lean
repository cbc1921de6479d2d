import PacedFeed.Json.Token
import PacedFeed.Proofs.Json.Numeral

-- The written form of tokens, one after the other, is split into the same tokens again.

namespace PacedFeed.Json.Token

def WellFormed : Token → Prop
  | .number numeral => numeral.WellFormed
  | _ => True

-- Tokens that end where something else begins. The others end by themselves.
def isWord : Token → Bool
  | .null | .bool _ | .number _ => true
  | _ => false

section Words

theorem isWordChar_of_isDigit {c : Char} (h : c.isDigit = true) : isWordChar c = true := by
  have hspace : isSpace c = false := by
    refine decide_eq_false ?_
    rintro (rfl | rfl | rfl | rfl) <;> exact absurd h (by decide)
  have hpunctuation : (punctuation? c).isNone = true := by
    unfold punctuation?
    split <;> first | exact absurd h (by decide) | rfl
  have hquote : (c != '"') = true := by
    refine bne_iff_ne.mpr ?_
    rintro rfl
    exact absurd h (by decide)
  rw [isWordChar, hspace, hpunctuation, hquote]
  rfl

theorem isWordChar_numeral {numeral : Numeral} (h : numeral.WellFormed) :
    ∀ c ∈ numeral.text, isWordChar c = true := by
  intro c hc
  rw [Numeral.text_eq, List.mem_append, List.mem_append, List.mem_append] at hc
  rcases hc with hc | hc | hc | hc
  · split at hc
    · rw [List.mem_singleton.mp hc]
      decide
    · exact absurd hc List.not_mem_nil
  · exact isWordChar_of_isDigit (h.whole_digits c hc)
  · unfold Numeral.fractionText at hc
    split at hc
    · exact absurd hc List.not_mem_nil
    · rcases List.mem_cons.mp hc with rfl | hc
      · decide
      · exact isWordChar_of_isDigit (h.fraction_digits c hc)
  · unfold Numeral.exponentText at hc
    split at hc
    · exact absurd hc List.not_mem_nil
    · rcases List.mem_cons.mp hc with rfl | hc
      · decide
      · rcases List.mem_cons.mp hc with rfl | hc
        · split <;> decide
        · exact isWordChar_of_isDigit (Numeral.isDigit_toDigits hc)

theorem word?_numeral {numeral : Numeral} (h : numeral.WellFormed) :
    word? numeral.text = some (.number numeral) := by
  have hread := Numeral.ofText?_text h
  have hne : ∀ {name : List Char}, Numeral.ofText? name = none → numeral.text ≠ name := by
    rintro name hnone rfl
    exact nomatch hread.symm.trans hnone
  rw [word?, if_neg (hne rfl), if_neg (hne rfl), if_neg (hne rfl), hread]
  rfl

theorem scan?_word {word rest : List Char} {token : Token} (hne : word ≠ [])
    (hword : ∀ c ∈ word, isWordChar c = true) (hrest : ∀ c ∈ rest.head?, isWordChar c = false)
    (ht : word? word = some token) :
    scan? (word ++ rest) = (scan? rest).map (token :: ·) := by
  obtain ⟨c, cs, rfl⟩ := List.exists_cons_of_ne_nil hne
  have hc := hword c List.mem_cons_self
  simp only [isWordChar, Bool.and_eq_true, Bool.not_eq_true', bne_iff_ne, Option.isNone_iff_eq_none]
    at hc
  obtain ⟨⟨hspace, hpunctuation⟩, hquote⟩ := hc
  have hcs : ∀ other ∈ cs, isWordChar other = true := fun other hm =>
    hword other (List.mem_cons_of_mem c hm)
  have hspan := span_append hcs hrest
  rw [List.cons_append, scan?, hspace, if_neg Bool.false_ne_true, if_neg hquote]
  simp only [hpunctuation, hspan.1, hspan.2, ht]

end Words

section Punctuation

theorem scan?_punctuation {c : Char} {token : Token} (h : punctuation? c = some token)
    (rest : List Char) : scan? (c :: rest) = (scan? rest).map (token :: ·) := by
  have hspace : isSpace c = false := by
    refine decide_eq_false ?_
    rintro (rfl | rfl | rfl | rfl) <;> cases h
  have hquote : c ≠ '"' := by
    rintro rfl
    cases h
  rw [scan?, hspace, if_neg Bool.false_ne_true, if_neg hquote]
  simp only [h]

end Punctuation

section Strings

-- How a character of a string is read back.
def pieceOf (c : Char) : Piece :=
  if c ∈ ['\x08', '\x0c', '\n', '\r', '\t'] ∨ ¬c < ' ' then .char c else .code c.toNat

-- Codes below that of a space take two hexadecimal digits.
theorem hexText_of_lt : ∀ n < 32, hexText n = ['0', '0', (n / 16).digitChar, (n % 16).digitChar] ∧
    code? '0' '0' (n / 16).digitChar (n % 16).digitChar = some n := by
  decide

theorem toNat_lt_of_lt_space {c : Char} (h : c < ' ') : c.toNat < 32 := h

section Pieces

variable (rest : List Char)

theorem pieces?_short {letter value : Char} (hne : letter ≠ 'u')
    (h : escaped? letter = some value) :
    pieces? ('\\' :: letter :: rest) =
      (pieces? rest).map fun read => (.char value :: read.1, read.2) := by
  rw [pieces?]
  · rw [h]
    cases pieces? rest <;> rfl
  · intro a b c d after hu
    exact absurd hu hne

theorem pieces?_code {n : Nat} (h : n < 32) :
    pieces? ('\\' :: 'u' :: (hexText n ++ rest)) =
      (pieces? rest).map fun read => (.code n :: read.1, read.2) := by
  obtain ⟨htext, hcode⟩ := hexText_of_lt n h
  rw [htext]
  simp only [List.cons_append, List.nil_append]
  rw [pieces?, hcode]
  cases pieces? rest <;> rfl

theorem pieces?_plain {c : Char} (hquote : c ≠ '"') (hslash : c ≠ '\\') (hspace : ¬c < ' ') :
    pieces? (c :: rest) = (pieces? rest).map fun read => (.char c :: read.1, read.2) := by
  rw [pieces?]
  · rw [if_neg fun h => h.elim hspace hslash]
    cases pieces? rest <;> rfl
  · exact hquote
  · intro a b c' d after h
    exact absurd h hslash
  · intro letter after h
    exact absurd h hslash

-- An escaped character is read as one piece.
theorem pieces?_escape (c : Char) :
    pieces? (escape c ++ rest) = (pieces? rest).map fun read => (pieceOf c :: read.1, read.2) := by
  unfold escape
  iterate 7
    split
    · rename_i h
      subst h
      exact pieces?_short rest (by decide) rfl
  rename_i hquote hslash hback hfeed hline hreturn htab
  split
  · rename_i hspace
    have hpiece : pieceOf c = .code c.toNat := by
      simp [pieceOf, hback, hfeed, hline, hreturn, htab, hspace]
    rw [hpiece]
    exact pieces?_code rest (toNat_lt_of_lt_space hspace)
  · rename_i hspace
    have hpiece : pieceOf c = .char c := if_pos (.inr hspace)
    rw [hpiece]
    exact pieces?_plain rest hquote hslash hspace

theorem pieces?_escaped (content : List Char) :
    pieces? (content.flatMap escape ++ '"' :: rest) = some (content.map pieceOf, rest) := by
  induction content with
  | nil => rfl
  | cons c content ih =>
      rw [List.flatMap_cons, List.append_assoc, pieces?_escape, ih]
      rfl

end Pieces

theorem content?_code {n : Nat} (h : n < 32) (rest : List Piece) :
    content? (.code n :: rest) = (content? rest).map (Char.ofNat n :: ·) := by
  have hhigh : isHighHalf n = false := decide_eq_false (by omega)
  have hlow : isLowHalf n = false := decide_eq_false (by omega)
  cases rest with
  | nil => simp [content?, hhigh, hlow]
  | cons piece rest => cases piece <;> simp [content?, hhigh, hlow]

theorem content?_pieces (content : List Char) : content? (content.map pieceOf) = some content := by
  induction content with
  | nil => rfl
  | cons c content ih =>
      rw [List.map_cons, pieceOf]
      split
      · rw [content?, ih]
        rfl
      · rename_i h
        rw [not_or, not_not] at h
        rw [content?_code (toNat_lt_of_lt_space h.2), ih, Char.ofNat_toNat]
        rfl

theorem scan?_quote {body after : List Char} {pieces : List Piece}
    (h : pieces? body = some (pieces, after)) :
    scan? ('"' :: body) =
      (scan? after).map (.string ((content? pieces).map String.ofList) :: ·) := by
  have hspace : isSpace '"' = false := by decide
  rw [scan?, hspace, if_neg Bool.false_ne_true, if_pos rfl]
  split
  · rename_i hnone
    cases h.symm.trans hnone
  · rename_i heq
    cases h.symm.trans heq
    rfl

theorem text_string (content : String) :
    text (.string (some content)) = '"' :: (content.toList.flatMap escape ++ ['"']) :=
  rfl

theorem text_half : text (.string none) = ['"', '\\', 'u', 'd', '8', '0', '0', '"'] :=
  rfl

theorem scan?_string (content : Option String) (rest : List Char) :
    scan? (text (.string content) ++ rest) = (scan? rest).map (.string content :: ·) := by
  cases content with
  | none =>
      have hpieces : pieces? (['\\', 'u', 'd', '8', '0', '0', '"'] ++ rest) =
          some ([.code 0xd800], rest) := by
        simp only [List.cons_append, List.nil_append]
        rw [pieces?, pieces?]
        rfl
      rw [text_half]
      exact scan?_quote hpieces
  | some content =>
      rw [text_string, List.cons_append, List.append_assoc, List.singleton_append,
        scan?_quote (pieces?_escaped rest content.toList), content?_pieces, Option.map_some,
        String.ofList_toList]

end Strings

-- Words are kept apart by what stands between them.
def Separated (tokens : List Token) : Prop :=
  tokens.IsChain fun first second => ¬(first.isWord ∧ second.isWord)

section Texts

theorem text_ne_nil {token : Token} (h : token.WellFormed) : token.text ≠ [] := by
  cases token with
  | number numeral =>
      intro hnil
      have hread := Numeral.ofText?_text h
      rw [show numeral.text = [] from hnil] at hread
      exact nomatch hread
  | bool value => cases value <;> decide
  | string content => cases content <;> exact List.cons_ne_nil _ _
  | null | openArray | closeArray | openObject | closeObject | comma | colon => decide

-- What is no word does not begin like one.
theorem head_text {token : Token} (h : token.isWord = false) :
    ∀ c ∈ token.text.head?, isWordChar c = false := by
  intro c hc
  cases token with
  | null | bool | number => cases h
  | string content =>
      cases content with
      | none =>
          rw [text_half] at hc
          cases hc
          rfl
      | some content =>
          rw [text_string] at hc
          cases hc
          rfl
  | openArray | closeArray | openObject | closeObject | comma | colon =>
      cases hc
      rfl

theorem scan?_text {token : Token} (h : token.WellFormed) {rest : List Char}
    (hrest : token.isWord = true → ∀ c ∈ rest.head?, isWordChar c = false) :
    scan? (token.text ++ rest) = (scan? rest).map (token :: ·) := by
  cases token with
  | openArray | closeArray | openObject | closeObject | comma | colon =>
      exact scan?_punctuation rfl rest
  | string content => exact scan?_string content rest
  | null => exact scan?_word (by decide) (List.all_eq_true.mp rfl) (hrest rfl) rfl
  | bool value =>
      cases value with
      | true => exact scan?_word (by decide) (List.all_eq_true.mp rfl) (hrest rfl) rfl
      | false => exact scan?_word (by decide) (List.all_eq_true.mp rfl) (hrest rfl) rfl
  | number numeral =>
      exact scan?_word (text_ne_nil h) (isWordChar_numeral h) (hrest rfl) (word?_numeral h)

-- A text that is written token by token is split into the same tokens.
theorem scan?_texts {tokens : List Token} (hwf : ∀ token ∈ tokens, token.WellFormed)
    (hs : Separated tokens) : scan? (tokens.flatMap text) = some tokens := by
  induction tokens with
  | nil => exact scan?.eq_1
  | cons token tokens ih =>
      have htoken := hwf token List.mem_cons_self
      have hrest : token.isWord = true →
          ∀ c ∈ (tokens.flatMap text).head?, isWordChar c = false := by
        intro hword c hc
        cases tokens with
        | nil => cases hc
        | cons next tokens =>
            have hnext : next.isWord = false := by
              have hsep := (List.isChain_cons_cons.mp hs).1
              simpa [hword] using hsep
            refine head_text hnext c ?_
            have hne := text_ne_nil (hwf next (List.mem_cons_of_mem _ List.mem_cons_self))
            rw [List.flatMap_cons, List.head?_append_of_ne_nil _ hne] at hc
            exact hc
      rw [List.flatMap_cons, scan?_text htoken hrest,
        ih (fun other hm => hwf other (List.mem_cons_of_mem _ hm)) hs.tail]
      rfl

end Texts

end PacedFeed.Json.Token
