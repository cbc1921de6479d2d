import Mathlib.Data.List.Nodup
import Mathlib.Data.List.Perm.Basic
import PacedFeed.Json.Fields

-- What is found of a structure in an object depends on the known members alone, in no order.

namespace PacedFeed

-- An object by its members. Their names are texts: an object with a name whose escapes stand for
-- no character is never read.
def Json.ofMembers (members : List (String × Json)) : Json :=
  .object (members.map fun member => (some member.1, member.2))

-- The members of known names.
def Fields.known (names : List String) (members : List (String × Json)) : Fields :=
  members.filter (·.1 ∈ names)

-- No known name is given twice.
def KnownOnce (names : List String) (members : List (String × Json)) : Prop :=
  ((members.map Prod.fst).filter (· ∈ names)).Nodup

instance (names : List String) (members : List (String × Json)) :
    Decidable (KnownOnce names members) :=
  inferInstanceAs (Decidable (List.Nodup _))

section Members

variable {names : List String} {members : List (String × Json)} {name : String} {value : Json}

theorem map_known (names : List String) (members : List (String × Json)) :
    (Fields.known names members).map Prod.fst = (members.map Prod.fst).filter (· ∈ names) := by
  rw [Fields.known, List.filter_map]
  rfl

theorem mem_known (hn : name ∈ names) :
    (name, value) ∈ Fields.known names members ↔ (name, value) ∈ members := by
  rw [Fields.known, List.mem_filter]
  exact and_iff_left (decide_eq_true hn)

theorem fields?_ofMembers (names : List String) (members : List (String × Json)) :
    (Json.ofMembers members).fields? names =
      if KnownOnce names members then some (Fields.known names members) else none := by
  have hnamed : (members.map fun member => (some member.1, member.2)).filterMap
      (fun member : Option String × Json => member.1.map (·, member.2)) = members := by
    rw [List.filterMap_map]
    exact List.filterMap_some
  simp only [Json.ofMembers, Json.fields?, hnamed, List.length_map, true_and]
  simp only [KnownOnce, ← map_known]
  rfl

-- How a document gives the members of a structure: as an object, or as an array of the first ones
-- in their own order.
def Json.Gives (names : List String) (document : Json) (members : List (String × Json)) : Prop :=
  document = .ofMembers members ∨
    ∃ items, document = .array items ∧ items.length ≤ names.length ∧ members = names.zip items

theorem exists_ofMembers_of_named {pairs : List (Option String × Json)}
    (h : (pairs.filterMap fun member => member.1.map (·, member.2)).length = pairs.length) :
    ∃ members, Json.object pairs = .ofMembers members := by
  rw [List.filterMap_length_eq_length] at h
  refine ⟨pairs.filterMap fun member => member.1.map (·, member.2), congrArg Json.object ?_⟩
  induction pairs with
  | nil => rfl
  | cons pair pairs ih =>
      obtain ⟨hpair, hpairs⟩ := List.forall_mem_cons.mp h
      obtain ⟨name | name, value⟩ := pair
      · cases hpair
      · exact congrArg (List.cons _) (ih hpairs)

theorem known_zip (names : List String) (items : List Json) :
    Fields.known names (names.zip items) = names.zip items :=
  List.filter_eq_self.mpr fun _ hm => decide_eq_true (List.of_mem_zip hm).1

theorem knownOnce_zip (h : names.Nodup) (items : List Json) :
    KnownOnce names (names.zip items) := by
  have hfirst : ((names.zip items).map Prod.fst).Sublist names := by
    rw [List.zip_eq_zip_take_min, List.map_fst_zip (by simp)]
    exact List.take_sublist _ _
  exact (List.filter_sublist.trans hfirst).nodup h

-- What is found in a document are the known ones of the members that it gives.
theorem fields?_eq_some_iff {document : Json} {found : Fields} (h : names.Nodup) :
    document.fields? names = some found ↔ ∃ members, document.Gives names members ∧
      KnownOnce names members ∧ found = Fields.known names members := by
  constructor
  · intro hf
    cases document with
    | array items =>
        rw [Json.fields?] at hf
        split at hf
        · rename_i hlength
          refine ⟨names.zip items, .inr ⟨items, rfl, hlength, rfl⟩, knownOnce_zip h items, ?_⟩
          rw [known_zip, Option.some.inj hf]
        · cases hf
    | object pairs =>
        obtain ⟨members, hmembers⟩ : ∃ members, Json.object pairs = .ofMembers members := by
          refine exists_ofMembers_of_named ?_
          rw [Json.fields?] at hf
          dsimp only at hf
          split at hf
          · rename_i hall
            exact hall.1
          · cases hf
        rw [hmembers, fields?_ofMembers] at hf
        split at hf
        · rename_i honce
          exact ⟨members, .inl hmembers, honce, (Option.some.inj hf).symm⟩
        · cases hf
    | null | bool | number | string => cases hf
  · rintro ⟨members, rfl | ⟨items, rfl, hlength, rfl⟩, honce, rfl⟩
    · rw [fields?_ofMembers, if_pos honce]
    · rw [Json.fields?, if_pos hlength, known_zip]

-- Names that occur once lead to what is given under them.
theorem lookup_eq_some_iff_mem (h : (members.map Prod.fst).Nodup) :
    members.lookup name = some value ↔ (name, value) ∈ members := by
  induction members with
  | nil => simp
  | cons member members ih =>
      obtain ⟨key, given⟩ := member
      rw [List.map_cons, List.nodup_cons] at h
      rw [List.mem_cons, Prod.mk.injEq, ← ih h.2]
      by_cases hk : name = key
      · subst hk
        have hrest : members.lookup name ≠ some value := fun hl => by
          have hname : (name, value).1 ∈ members.map Prod.fst :=
            List.mem_map_of_mem ((ih h.2).mp hl)
          exact h.1 hname
        rw [List.lookup_cons_self, or_iff_left hrest, Option.some_inj]
        exact ⟨fun he => ⟨rfl, he.symm⟩, fun he => he.2.symm⟩
      · rw [List.lookup_cons, beq_eq_false_iff_ne.mpr hk]
        exact (or_iff_right fun he => hk he.1).symm

end Members

section Default

variable {α : Type} {names : List String} {members : List (String × Json)} {name : String}
variable {read : Json → Option α} {value default : α}

section Once

variable (h : KnownOnce names members) (hn : name ∈ names)
include h hn

theorem lookup_known_iff {given : Json} :
    (Fields.known names members).lookup name = some given ↔ (name, given) ∈ members := by
  rw [lookup_eq_some_iff_mem ((map_known names members).symm ▸ h), mem_known hn]

-- A field takes the value that is given for it. Without one it takes the default.
theorem orDefault_known_iff :
    (Fields.known names members).orDefault name read default = some value ↔
      (∀ given, (name, given) ∈ members → read given = some value) ∧
        ((∀ given, (name, given) ∉ members) → value = default) := by
  simp only [← lookup_known_iff h hn, Fields.orDefault]
  cases (Fields.known names members).lookup name with
  | none => simp [eq_comm]
  | some given => simp

theorem exists_orDefault_known
    (hread : ∀ given, (name, given) ∈ members → ∃ value, read given = some value) :
    ∃ value, (Fields.known names members).orDefault name read default = some value := by
  simp only [← lookup_known_iff h hn] at hread
  rw [Fields.orDefault]
  cases hl : (Fields.known names members).lookup name with
  | none => exact ⟨default, rfl⟩
  | some given => exact hread given hl

end Once

end Default

-- The same members in any order among others of unknown names. The values under a name may differ
-- in what does not matter there.
def Rearranged (names : List String) (alike : String → Json → Json → Prop)
    (members other : List (String × Json)) : Prop :=
  ∃ kept extra, List.Forall₂ (fun member keep => member.1 = keep.1 ∧
      alike member.1 member.2 keep.2) members kept ∧
    (∀ member ∈ extra, member.1 ∉ names) ∧ other.Perm (kept ++ extra)

section Rearranged

variable {names : List String} {alike : String → Json → Json → Prop}
variable {members other kept : List (String × Json)} {name : String} {value : Json}

theorem map_fst_of_forall₂
    (h : List.Forall₂ (fun member keep => member.1 = keep.1 ∧ alike member.1 member.2 keep.2)
      members kept) : members.map Prod.fst = kept.map Prod.fst := by
  induction h with
  | nil => rfl
  | cons hm _ ih => rw [List.map_cons, List.map_cons, hm.1, ih]

theorem exists_alike_of_forall₂
    (h : List.Forall₂ (fun member keep => member.1 = keep.1 ∧ alike member.1 member.2 keep.2)
      members kept) :
    (∀ value, (name, value) ∈ members → ∃ keep, (name, keep) ∈ kept ∧ alike name value keep) ∧
      ∀ keep, (name, keep) ∈ kept → ∃ value, (name, value) ∈ members ∧ alike name value keep := by
  induction h with
  | nil => exact ⟨fun _ hm => absurd hm List.not_mem_nil, fun _ hm => absurd hm List.not_mem_nil⟩
  | @cons member keep members kept hm _ ih =>
      obtain ⟨key, value⟩ := member
      obtain ⟨key', value'⟩ := keep
      obtain ⟨rfl, halike⟩ : key = key' ∧ alike key value value' := hm
      constructor
      · intro given hg
        rcases List.mem_cons.mp hg with he | hg
        · cases he
          exact ⟨value', List.mem_cons_self, halike⟩
        · obtain ⟨found, hf, ha⟩ := ih.1 given hg
          exact ⟨found, List.mem_cons_of_mem _ hf, ha⟩
      · intro given hg
        rcases List.mem_cons.mp hg with he | hg
        · cases he
          exact ⟨value, List.mem_cons_self, halike⟩
        · obtain ⟨found, hf, ha⟩ := ih.2 given hg
          exact ⟨found, List.mem_cons_of_mem _ hf, ha⟩

theorem Rearranged.knownOnce_iff (h : Rearranged names alike members other) :
    KnownOnce names members ↔ KnownOnce names other := by
  obtain ⟨kept, extra, hkept, hextra, hperm⟩ := h
  have hnone : (extra.map Prod.fst).filter (· ∈ names) = [] := by
    refine List.filter_eq_nil_iff.mpr fun name hm => ?_
    obtain ⟨member, hmember, rfl⟩ := List.mem_map.mp hm
    simpa using hextra member hmember
  have hnames := (hperm.map Prod.fst).filter (· ∈ names)
  rw [List.map_append, List.filter_append, hnone, List.append_nil] at hnames
  rw [KnownOnce, KnownOnce, hnames.nodup_iff, map_fst_of_forall₂ hkept]

theorem Rearranged.exists_alike (h : Rearranged names alike members other) (hn : name ∈ names) :
    (∀ value, (name, value) ∈ members → ∃ given, (name, given) ∈ other ∧ alike name value given) ∧
      ∀ given, (name, given) ∈ other →
        ∃ value, (name, value) ∈ members ∧ alike name value given := by
  obtain ⟨kept, extra, hkept, hextra, hperm⟩ := h
  have hmem : ∀ given, (name, given) ∈ other ↔ (name, given) ∈ kept := by
    intro given
    rw [hperm.mem_iff, List.mem_append]
    exact or_iff_left fun hm => hextra _ hm hn
  simp only [hmem]
  exact exists_alike_of_forall₂ hkept

end Rearranged

end PacedFeed
