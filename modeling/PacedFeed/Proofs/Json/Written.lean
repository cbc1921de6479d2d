import PacedFeed.Proofs.Json.Document
import PacedFeed.Proofs.Json.Members

-- What a datum is written as, and how its values and fields are read again.

namespace PacedFeed

section Datum

mutual

theorem Datum.wellFormed_toJson : ∀ datum : Datum, datum.toJson.WellFormed
  | .flag _ | .name _ => Json.wellFormed_of_tokens_eq rfl trivial
  | .count n => Json.wellFormed_of_tokens_eq rfl (Json.Numeral.wellFormed_ofNat n)
  | .real (.finite negative rank _) =>
    Json.wellFormed_of_tokens_eq rfl (Json.Numeral.wellFormed_ofMagnitude negative rank)
  | .real .nan | .real (.infinite _) => Json.wellFormed_of_tokens_eq rfl trivial
  | .group fields => Json.wellFormed_object (Datum.wellFormed_membersOf fields)

theorem Datum.wellFormed_membersOf : ∀ (fields : List (String × Datum)),
    ∀ member ∈ Datum.membersOf fields, member.2.WellFormed
  | [], _, hm => absurd hm List.not_mem_nil
  | (_, datum) :: fields, member, hm => by
      rcases List.mem_cons.mp hm with rfl | hm
      · exact datum.wellFormed_toJson
      · exact Datum.wellFormed_membersOf fields member hm

end

theorem Json.wellFormed_ofMembers {members : List (String × Json)}
    (h : ∀ member ∈ members, member.2.WellFormed) : (Json.ofMembers members).WellFormed := by
  refine wellFormed_object fun member hm => ?_
  obtain ⟨given, hgiven, rfl⟩ := List.mem_map.mp hm
  exact h given hgiven

-- What is written of a datum is read as the document that was written.
theorem Datum.parse?_render (datum : Datum) :
    Json.parse? datum.toJson.render = some datum.toJson :=
  Json.parse?_render datum.wellFormed_toJson

end Datum

section Values

theorem Json.word?_ofNat {n : Nat} (h : n < wordLimit) : Json.word? (.ofNat n) = some n :=
  Json.Numeral.toWord?_ofNat h

theorem Json.lt_of_word? {document : Json} {n : Nat} (h : document.word? = some n) :
    n < wordLimit := by
  cases document with
  | number numeral =>
      rw [Json.word?, Json.Numeral.toWord?] at h
      split at h
      · cases h
      · dsimp only at h
        split at h
        · rename_i hlt
          rw [← Option.some.inj h]
          exact hlt
        · cases h
  | null | bool | string | array | object => cases h

theorem Json.isFinite_of_double? {document : Json} {value : Double}
    (h : document.double? = some value) : value.isFinite = true := by
  cases document with
  | number numeral =>
      rw [Json.double?] at h
      split at h
      · rename_i hfinite
        rw [← Option.some.inj h]
        exact hfinite
      · cases h
  | null | bool | string | array | object => cases h

theorem Json.double?_ofDouble {value : Double} (h : value.isFinite = true) :
    Json.double? (.ofDouble value) = some value := by
  cases value with
  | nan | infinite => cases h
  | finite negative rank rank_lt =>
      rw [Json.ofDouble, Json.double?, Json.Numeral.toDouble_ofMagnitude negative rank_lt]
      rfl

-- A choice is found by its name, if no two choices share a name.
theorem find?_name_iff {α : Type} {name : α → String} {choices : List α} {text : String} {value : α}
    (hn : (choices.map name).Nodup) :
    choices.find? (name · = text) = some value ↔ value ∈ choices ∧ name value = text := by
  refine ⟨fun hf => ⟨List.mem_of_find?_eq_some hf, by simpa using List.find?_some hf⟩, ?_⟩
  rintro ⟨hm, rfl⟩
  induction choices with
  | nil => exact absurd hm List.not_mem_nil
  | cons first choices ih =>
      rw [List.map_cons, List.nodup_cons] at hn
      rcases List.mem_cons.mp hm with rfl | hm
      · exact List.find?_cons_of_pos (decide_eq_true rfl)
      · have hne : name first ≠ name value := fun he => hn.1 (he ▸ List.mem_map_of_mem hm)
        rw [List.find?_cons_of_neg (by simpa using hne)]
        exact ih hn.2 hm

theorem Json.choice?_name {α : Type} {name : α → String} {choices : List α} {value : α}
    (hn : (choices.map name).Nodup) (hm : value ∈ choices) :
    Json.choice? name choices (Datum.name (name value)).toJson = some value :=
  (find?_name_iff hn).mpr ⟨hm, rfl⟩

end Values

namespace Datum

def fields : Datum → List (String × Datum)
  | .group fields => fields
  | _ => []

-- The fields of a structure, as they are found in what was written.
def written (fields : List (String × Datum)) : Fields :=
  fields.map fun field => (field.1, field.2.toJson)

section Written

variable {fields : List (String × Datum)} {key : String}

theorem membersOf_eq (fields : List (String × Datum)) :
    membersOf fields = fields.map fun field => (some field.1, field.2.toJson) := by
  induction fields with
  | nil => rfl
  | cons field fields ih => rw [Datum.membersOf, ih, List.map_cons]

theorem map_written (fields : List (String × Datum)) :
    (written fields).map Prod.fst = fields.map Prod.fst := by
  rw [written, List.map_map]
  rfl

theorem toJson_group (fields : List (String × Datum)) :
    (Datum.group fields).toJson = Json.ofMembers (written fields) := by
  rw [Datum.toJson, membersOf_eq, Json.ofMembers, written, List.map_map]
  rfl

-- What is written has all fields, each of them once.
theorem fields?_group (h : (fields.map Prod.fst).Nodup) :
    Json.fields? (fields.map Prod.fst) (Datum.group fields).toJson = some (written fields) := by
  have hall : ∀ name ∈ (written fields).map Prod.fst, name ∈ fields.map Prod.fst := fun name hm =>
    map_written fields ▸ hm
  have honce : KnownOnce (fields.map Prod.fst) (written fields) := by
    rw [KnownOnce, List.filter_eq_self.mpr fun name hm => decide_eq_true (hall name hm),
      map_written]
    exact h
  have hknown : Fields.known (fields.map Prod.fst) (written fields) = written fields :=
    List.filter_eq_self.mpr fun field hm => decide_eq_true (hall _ (List.mem_map_of_mem hm))
  rw [toJson_group, fields?_ofMembers, if_pos honce, hknown]

theorem lookup_written {datum : Datum} (h : (fields.map Prod.fst).Nodup)
    (hm : (key, datum) ∈ fields) : (written fields).lookup key = some datum.toJson := by
  have hn : ((written fields).map Prod.fst).Nodup := map_written fields ▸ h
  refine (lookup_eq_some_iff_mem hn).mpr ?_
  exact List.mem_map_of_mem (f := fun field => (field.1, field.2.toJson)) hm

end Written

end Datum

namespace Fields

open Datum

section Written

variable {α : Type} {fields : List (String × Datum)} {key : String} {read : Json → Option α}
variable {value default : α} (h : (fields.map Prod.fst).Nodup)
include h

theorem required_written {datum : Datum} (hm : (key, datum) ∈ fields)
    (hr : read datum.toJson = some value) :
    (written fields).required key read = some value := by
  rw [Fields.required, lookup_written h hm]
  exact hr

theorem orDefault_written {datum : Datum} (hm : (key, datum) ∈ fields)
    (hr : read datum.toJson = some value) :
    (written fields).orDefault key read default = some value := by
  rw [Fields.orDefault, lookup_written h hm]
  exact hr

theorem orDefault_count {n default : Nat} (hm : (key, .count n) ∈ fields) (hn : n < wordLimit) :
    (written fields).orDefault key Json.word? default = some n :=
  orDefault_written h hm (Json.word?_ofNat hn)

theorem orDefault_real {value default : Double} (hm : (key, .real value) ∈ fields)
    (hv : value.isFinite = true) :
    (written fields).orDefault key Json.double? default = some value :=
  orDefault_written h hm (Json.double?_ofDouble hv)

theorem orDefault_flag (value : Bool) {default : Bool} (hm : (key, .flag value) ∈ fields) :
    (written fields).orDefault key Json.flag? default = some value :=
  orDefault_written h hm rfl

end Written

section Read

variable {α : Type} {found : Fields} {key : String} {read : Json → Option α} {value default : α}

-- What holds of the default and of all that can be read holds of the field.
theorem of_orDefault {P : α → Prop} (hd : P default)
    (hr : ∀ {document}, read document = some value → P value)
    (h : found.orDefault key read default = some value) : P value := by
  unfold Fields.orDefault at h
  split at h
  · rw [← Option.some.inj h]
    exact hd
  · exact hr h

theorem word_of_orDefault {n default : Nat} (hd : default < wordLimit)
    (h : found.orDefault key Json.word? default = some n) : n < wordLimit :=
  of_orDefault (P := (· < wordLimit)) hd Json.lt_of_word? h

theorem finite_of_orDefault {value default : Double}
    (hd : default.isFinite = true) (h : found.orDefault key Json.double? default = some value) :
    value.isFinite = true :=
  of_orDefault (P := fun value => value.isFinite = true) hd Json.isFinite_of_double? h

end Read

end Fields

-- Numbers that can be written: words, and doubles that are finite.
structure Writable (counts : List Nat) (reals : List Double) : Prop where
  lt_of_mem : ∀ n ∈ counts, n < wordLimit
  finite_of_mem : ∀ value ∈ reals, value.isFinite = true

theorem writable_iff_forall {counts : List Nat} {reals : List Double} :
    Writable counts reals ↔
      (∀ n ∈ counts, n < wordLimit) ∧ ∀ value ∈ reals, value.isFinite = true :=
  ⟨fun h => ⟨h.lt_of_mem, h.finite_of_mem⟩, fun h => ⟨h.1, h.2⟩⟩

theorem bind_of_eq_some {α β : Type} {found : Option α} {value : α} {next : α → Option β}
    {result : Option β} (h : found = some value) (hn : next value = result) :
    found.bind next = result := by
  rw [h, Option.bind_some, hn]

end PacedFeed
