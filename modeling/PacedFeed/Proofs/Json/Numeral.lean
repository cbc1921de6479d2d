import PacedFeed.Json.Numeral
import PacedFeed.Proofs.Double.Decimal

-- Written numbers: each is read back as it was written, and has the value that was written.

namespace PacedFeed.Json

-- Powers are those of the core library, whatever else is imported.
attribute [local instance (2000)] instPowNat

-- A word reaches up to something that is not of its kind.
theorem span_append {p : Char → Bool} {word rest : List Char} (hw : ∀ c ∈ word, p c = true)
    (hr : ∀ c ∈ rest.head?, p c = false) :
    (word ++ rest).takeWhile p = word ∧ (word ++ rest).dropWhile p = rest := by
  rw [List.takeWhile_append_of_pos hw, List.dropWhile_append_of_pos hw]
  cases rest with
  | nil => simp
  | cons c rest =>
      have hc : p c = false := hr c rfl
      simp [hc]

namespace Numeral

-- What can be written: digits only, and no needless zeros in front.
structure WellFormed (numeral : Numeral) : Prop where
  isWhole : isWhole numeral.whole = true
  whole_digits : ∀ c ∈ numeral.whole, c.isDigit = true
  fraction_digits : ∀ c ∈ numeral.fraction, c.isDigit = true

section Digits

theorem isDigit_toDigits {n : Nat} {c : Char} (h : c ∈ Nat.toDigits 10 n) : c.isDigit = true :=
  Nat.isDigit_of_mem_toDigits (by decide) (by decide) h

theorem isWhole_singleton (c : Char) : isWhole [c] = true := by
  unfold isWhole
  split
  · contradiction
  · rfl
  · rename_i hne heq
    obtain ⟨rfl, rfl⟩ := List.cons.inj heq
    exact bne_iff_ne.mpr fun h => hne h rfl

theorem isWhole_of_ne {first : Char} (rest : List Char) (h : first ≠ '0') :
    isWhole (first :: rest) = true := by
  unfold isWhole
  split
  · contradiction
  · rfl
  · rename_i heq
    obtain ⟨rfl, rfl⟩ := List.cons.inj heq
    exact bne_iff_ne.mpr h

-- The first digit of a positive number is no zero.
theorem toDigits_eq_cons {n : Nat} (h : 0 < n) :
    ∃ first rest, Nat.toDigits 10 n = first :: rest ∧ first ≠ '0' := by
  induction n using Nat.strong_induction_on with
  | _ n ih =>
      rw [Nat.toDigits_eq_if (by decide)]
      split
      · refine ⟨_, _, rfl, ?_⟩
        rw [ne_eq, Nat.digitChar_eq_zero]
        omega
      · obtain ⟨first, rest, hdigits, hne⟩ := ih (n / 10) (by omega) (by omega)
        exact ⟨first, rest ++ [(n % 10).digitChar], by rw [hdigits, List.cons_append], hne⟩

theorem isWhole_toDigits (n : Nat) : isWhole (Nat.toDigits 10 n) = true := by
  by_cases hn : n = 0
  · rw [hn, Nat.toDigits_zero]
    rfl
  · obtain ⟨first, rest, hdigits, hne⟩ := toDigits_eq_cons (Nat.pos_of_ne_zero hn)
    rw [hdigits]
    exact isWhole_of_ne rest hne

end Digits

section Writers

theorem wellFormed_ofNat (n : Nat) : (ofNat n).WellFormed where
  isWhole := isWhole_toDigits n
  whole_digits := fun _ => isDigit_toDigits
  fraction_digits := fun _ hc => absurd hc List.not_mem_nil

theorem toWord?_ofNat {n : Nat} (h : n < wordLimit) : (ofNat n).toWord? = some n := by
  have hdigits : Nat.ofDigitChars 10 (ofNat n).whole 0 = n := Nat.ofDigitChars_ten_toDigits
  rw [toWord?, hdigits]
  simp [ofNat, h]

-- The digits of a decimal, split at the point.
theorem positional_spec (decimal : Decimal) :
    let parts := decimal.positional
    isWhole parts.1 = true ∧ (∀ c ∈ parts.1, c.isDigit = true) ∧
      (∀ c ∈ parts.2, c.isDigit = true) ∧
      ((0 ≤ decimal.exponent ∧ parts.2 = [] ∧
          Nat.ofDigitChars 10 parts.1 0 = decimal.digits * 10 ^ decimal.exponent.toNat) ∨
        (decimal.exponent = -(parts.2.length : Int) ∧ parts.2 ≠ [] ∧
          Nat.ofDigitChars 10 (parts.1 ++ parts.2) 0 = decimal.digits)) := by
  unfold Decimal.positional
  dsimp only
  split
  · rename_i he
    exact ⟨isWhole_toDigits _, fun _ => isDigit_toDigits, fun _ hc => absurd hc List.not_mem_nil,
      .inl ⟨he, rfl, Nat.ofDigitChars_ten_toDigits⟩⟩
  · rename_i he
    let places := (-decimal.exponent).toNat
    let rest := Nat.toDigits 10 (decimal.digits % 10 ^ places)
    have hplaces : 0 < places := by omega
    have hrest : rest.length ≤ places :=
      (Nat.length_toDigits_le_iff (by decide) hplaces).mpr (Nat.mod_lt _ (Nat.pow_pos (by decide)))
    have hlength : (List.replicate (places - rest.length) '0' ++ rest).length = places := by
      rw [List.length_append, List.length_replicate]
      omega
    refine ⟨isWhole_toDigits _, fun _ => isDigit_toDigits, ?_, .inr ⟨?_, ?_, ?_⟩⟩
    · intro c hc
      rcases List.mem_append.mp hc with hc | hc
      · rw [List.eq_of_mem_replicate hc]
        rfl
      · exact isDigit_toDigits hc
    · rw [hlength]
      omega
    · intro hnil
      have hnone := hlength.symm.trans (congrArg List.length hnil)
      rw [List.length_nil] at hnone
      omega
    · rw [Nat.ofDigitChars_append, Nat.ofDigitChars_ten_toDigits,
        Nat.ofDigitChars_eq_ofDigitChars_zero, hlength, Nat.ofDigitChars_append,
        Nat.ofDigitChars_replicate_zero, Nat.mul_zero, Nat.ofDigitChars_ten_toDigits]
      exact Nat.div_add_mod _ _

theorem wellFormed_ofMagnitude (negative : Bool) (rank : Nat) :
    (ofMagnitude negative rank).WellFormed := by
  let decimal := Double.shortest .even rank
  obtain ⟨hwhole, hdigits, hfraction, -⟩ := positional_spec decimal
  unfold ofMagnitude
  dsimp only
  split
  · refine ⟨hwhole, hdigits, ?_⟩
    dsimp only
    split
    · intro c hc
      rw [List.mem_singleton.mp hc]
      rfl
    · exact hfraction
  · refine ⟨?_, fun c hc => isDigit_toDigits (List.mem_of_mem_take hc),
      fun c hc => isDigit_toDigits (List.mem_of_mem_drop hc)⟩
    obtain ⟨first, rest, hcons⟩ := List.exists_cons_of_ne_nil
      (Nat.toDigits_ne_nil (n := decimal.digits) (b := 10))
    rw [hcons]
    exact isWhole_singleton first

-- A magnitude is written so that it has the same value.
theorem toDouble_ofMagnitude (negative : Bool) {rank : Nat} (h : rank < magnitudeCount) :
    (ofMagnitude negative rank).toDouble = .finite negative rank h := by
  have hreads : (Double.shortest .even rank).Reads rank := Double.reads_shortest h
  unfold ofMagnitude
  generalize Double.shortest .even rank = decimal at *
  obtain ⟨-, -, -, hvalue⟩ := positional_spec decimal
  dsimp only
  split
  · rw [toDouble]
    refine Double.ofDecimal_eq_finite negative h hreads ?_
    dsimp only
    rcases hvalue with ⟨he, hnil, hdigits⟩ | ⟨he, hne, hdigits⟩
    · obtain ⟨k, hk⟩ := Int.eq_ofNat_of_zero_le he
      rw [hk, Int.toNat_natCast] at hdigits
      have hshifted : Nat.ofDigitChars 10 (decimal.positional.1 ++ ['0']) 0 =
          10 * (decimal.digits * 10 ^ k) := by
        rw [Nat.ofDigitChars_append, hdigits]
        rfl
      have hexponent : (none : Option Int).getD 0 - (['0'].length : Int) = -1 := rfl
      rw [hnil, List.isEmpty_nil, if_pos rfl, hshifted, hexponent, Decimal.value, hk,
        zpow_natCast, zpow_neg_one]
      push_cast
      ring
    · rw [if_neg (by simpa using hne), hdigits, Decimal.value, he]
      simp
  · rw [toDouble]
    refine Double.ofDecimal_eq_finite negative h hreads ?_
    dsimp only
    have hexponent : (some decimal.leading).getD 0 -
        (((Nat.toDigits 10 decimal.digits).drop 1).length : Int) = decimal.exponent := by
      have hlength := Nat.length_toDigits_pos (b := 10) (n := decimal.digits)
      rw [Option.getD_some, Decimal.leading, List.length_drop]
      omega
    rw [List.take_append_drop, Nat.ofDigitChars_ten_toDigits, hexponent, Decimal.value]

end Writers

section Readers

-- What is written after the digits before the point, and after those behind it.
def exponentText : Option Int → List Char
  | none => []
  | some exponent => 'e' :: (if exponent < 0 then '-' else '+') :: Nat.toDigits 10 exponent.natAbs

def fractionText (fraction : List Char) : List Char :=
  if fraction.isEmpty then [] else '.' :: fraction

theorem text_eq (numeral : Numeral) :
    numeral.text = (if numeral.negative then ['-'] else []) ++
      (numeral.whole ++ (fractionText numeral.fraction ++ exponentText numeral.exponent)) := by
  rw [text, fractionText]
  cases numeral.exponent <;> simp [exponentText]

theorem readExponent?_exponentText (exponent : Option Int) :
    readExponent? (exponentText exponent) = some exponent := by
  cases exponent with
  | none => rfl
  | some exponent =>
      have hall : (Nat.toDigits 10 exponent.natAbs).all Char.isDigit = true :=
        List.all_eq_true.mpr fun _ => isDigit_toDigits
      have hne : (Nat.toDigits 10 exponent.natAbs).isEmpty = false := by
        simp [Nat.toDigits_ne_nil]
      by_cases hneg : exponent < 0
      · simp [exponentText, readExponent?, hneg, hall, hne, abs_of_neg hneg]
      · simp [exponentText, readExponent?, hneg, hall, hne, abs_of_nonneg (not_lt.mp hneg)]

theorem head_exponentText (exponent : Option Int) :
    ∀ c ∈ (exponentText exponent).head?, c.isDigit = false := by
  cases exponent with
  | none => simp [exponentText]
  | some exponent => simp [exponentText]

theorem head_fractionText (fraction : List Char) (exponent : Option Int) :
    ∀ c ∈ (fractionText fraction ++ exponentText exponent).head?, c.isDigit = false := by
  unfold fractionText
  split
  · exact head_exponentText exponent
  · simp

theorem readFraction?_fractionText {fraction : List Char} (exponent : Option Int)
    (hf : ∀ c ∈ fraction, c.isDigit = true) :
    readFraction? (fractionText fraction ++ exponentText exponent) =
      some (fraction, exponentText exponent) := by
  unfold fractionText
  split
  · rename_i hempty
    rw [List.isEmpty_iff.mp hempty]
    cases exponent with
    | none => rfl
    | some exponent => rfl
  · rename_i hne
    obtain ⟨htake, hdrop⟩ := span_append hf (head_exponentText exponent)
    rw [List.cons_append, readFraction?, htake, hdrop, if_neg hne]

theorem readSign_text {numeral : Numeral} (h : numeral.WellFormed) :
    readSign numeral.text = (numeral.negative,
      numeral.whole ++ (fractionText numeral.fraction ++ exponentText numeral.exponent)) := by
  rw [text_eq]
  cases hs : numeral.negative with
  | true => rfl
  | false =>
      obtain ⟨first, rest, hw⟩ : ∃ first rest, numeral.whole = first :: rest := by
        refine List.exists_cons_of_ne_nil fun hnil => ?_
        have hwhole := h.isWhole
        rw [hnil] at hwhole
        exact nomatch hwhole
      have hfirst : first ≠ '-' := by
        rintro rfl
        have hdigit := h.whole_digits '-' (by rw [hw]; exact List.mem_cons_self)
        exact absurd hdigit (by decide)
      rw [hw]
      simp only [Bool.false_eq_true, if_false, List.nil_append, List.cons_append]
      unfold readSign
      split
      · rename_i heq
        exact absurd (List.cons.inj heq).1 hfirst
      · rfl

-- A written number is read back.
theorem ofText?_text {numeral : Numeral} (h : numeral.WellFormed) :
    ofText? numeral.text = some numeral := by
  obtain ⟨htake, hdrop⟩ := span_append h.whole_digits
    (head_fractionText numeral.fraction numeral.exponent)
  rw [ofText?, readSign_text h]
  dsimp only
  rw [htake, hdrop, if_pos h.isWhole, readFraction?_fractionText _ h.fraction_digits]
  dsimp only
  rw [readExponent?_exponentText]
  rfl

end Readers

end Numeral

end PacedFeed.Json
