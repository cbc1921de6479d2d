import PacedFeed.Proofs.Double.Decimal
import PacedFeed.Proofs.Json.Written

-- What a document says of a value, told by what is written and not by how it is read.

namespace PacedFeed.Json

-- The number that is written, without its sign.
def Numeral.magnitude (numeral : Numeral) : ℚ :=
  Nat.ofDigitChars 10 (numeral.whole ++ numeral.fraction) 0 *
    10 ^ (numeral.exponent.getD 0 - numeral.fraction.length)

-- A word is written with digits alone.
def MeansWord (document : Json) (n : Nat) : Prop :=
  ∃ digits, document = .number ⟨false, digits, [], none⟩ ∧ Nat.ofDigitChars 10 digits 0 = n ∧
    n < wordLimit

-- Any number stands for the double that it is rounded to, unless it is beyond all of them.
def MeansReal (document : Json) (value : Double) : Prop :=
  ∃ numeral rank, ∃ h : rank < magnitudeCount, document = .number numeral ∧
    value = .finite numeral.negative rank h ∧
    Double.Rounds (numeral.magnitude * 2 ^ (1074 : Int)) rank

def MeansFlag (document : Json) (value : Bool) : Prop :=
  document = .bool value

-- A choice is named by a string, or by the one member of an object that says nothing more.
def MeansChoice {α : Type} (names : List (String × α)) (document : Json) (value : α) : Prop :=
  ∃ name, (name, value) ∈ names ∧
    (document = .string (some name) ∨ document = .object [(some name, .null)])

section Readers

variable {document : Json}

theorem word?_eq_some_iff {n : Nat} : document.word? = some n ↔ document.MeansWord n := by
  constructor
  · intro h
    have hlt := lt_of_word? h
    cases document with
    | number numeral =>
        rw [word?, Numeral.toWord?] at h
        split at h
        · cases h
        · rename_i hplain
          simp only [not_or, not_not, Bool.not_eq_true] at hplain
          obtain ⟨hsign, hfraction, hexponent⟩ := hplain
          obtain ⟨negative, whole, fraction, exponent⟩ := numeral
          obtain rfl : negative = false := hsign
          obtain rfl : fraction = [] := hfraction
          obtain rfl : exponent = none := hexponent
          dsimp only at h
          split at h
          · exact ⟨whole, rfl, Option.some.inj h, hlt⟩
          · cases h
    | null | bool | string | array | object => cases h
  · rintro ⟨digits, rfl, rfl, hlt⟩
    simp [word?, Numeral.toWord?, hlt]

theorem double?_eq_some_iff {value : Double} :
    document.double? = some value ↔ document.MeansReal value := by
  constructor
  · intro h
    have hfinite := isFinite_of_double? h
    cases document with
    | number numeral =>
        obtain ⟨rank, hrounds⟩ := Double.exists_rounds
          (Nat.ofDigitChars 10 (numeral.whole ++ numeral.fraction) 0)
          (numeral.exponent.getD 0 - numeral.fraction.length)
        have hread : numeral.toDouble = .ofRank numeral.negative rank :=
          Double.ofDecimal_of_rounds numeral.negative hrounds
        obtain rfl : numeral.toDouble = value := by
          rw [double?] at h
          split at h
          · exact Option.some.inj h
          · cases h
        by_cases hrank : rank < magnitudeCount
        · exact ⟨numeral, rank, hrank, rfl, hread.trans (Double.ofRank_of_lt _ hrank), hrounds⟩
        · rw [hread, Double.ofRank, dif_neg hrank] at hfinite
          cases hfinite
    | null | bool | string | array | object => cases h
  · rintro ⟨numeral, rank, hrank, rfl, rfl, hrounds⟩
    have hread : numeral.toDouble = .finite numeral.negative rank hrank :=
      (Double.ofDecimal_of_rounds numeral.negative hrounds).trans (Double.ofRank_of_lt _ hrank)
    rw [double?, hread]
    rfl

theorem flag?_eq_some_iff {value : Bool} :
    document.flag? = some value ↔ document.MeansFlag value := by
  rw [MeansFlag]
  cases document <;> simp [flag?]

theorem choice?_eq_some_iff {α : Type} {name : α → String} {choices : List α} {value : α}
    (hn : (choices.map name).Nodup) :
    choice? name choices document = some value ↔
      document.MeansChoice (choices.map fun choice => (name choice, choice)) value := by
  have hnames : ∀ text, (text, value) ∈ choices.map (fun choice => (name choice, choice)) ↔
      choices.find? (name · = text) = some value := by
    intro text
    rw [find?_name_iff hn, List.mem_map]
    constructor
    · rintro ⟨choice, hm, he⟩
      cases he
      exact ⟨hm, rfl⟩
    · rintro ⟨hm, rfl⟩
      exact ⟨value, hm, rfl⟩
  simp only [MeansChoice, hnames]
  constructor
  · intro h
    unfold choice? at h
    split at h
    · exact ⟨_, h, .inl rfl⟩
    · exact ⟨_, h, .inr rfl⟩
    · cases h
  · rintro ⟨text, h, rfl | rfl⟩
    · exact h
    · exact h

end Readers

end PacedFeed.Json
