import PacedFeed.Json

namespace PacedFeed

-- The fields of a structure that were found, by name.
abbrev Fields := List (String × Json)

namespace Json

def word? : Json → Option Nat
  | .number numeral => numeral.toWord?
  | _ => none

-- The nearest double, unless the number is beyond all of them.
def double? : Json → Option Double
  | .number numeral =>
    let value := numeral.toDouble
    if value.isFinite then some value else none
  | _ => none

def flag? : Json → Option Bool
  | .bool value => some value
  | _ => none

-- One of some named choices, written "Name" or {"Name": null}.
def choice? {α : Type} (name : α → String) (choices : List α) : Json → Option α
  | .string (some text) => choices.find? (name · = text)
  | .object [(some text, .null)] => choices.find? (name · = text)
  | _ => none

-- The known fields of a structure and their values. An object gives them by name, in any
-- order, each at most once, between members of other names. An array gives the first ones in
-- their own order.
def fields? (names : List String) : Json → Option Fields
  | .array items => if items.length ≤ names.length then some (names.zip items) else none
  | .object members =>
    let named := members.filterMap fun (name, value) => name.map (·, value)
    let known := named.filter (·.1 ∈ names)
    if named.length = members.length ∧ (known.map Prod.fst).Nodup then some known else none
  | _ => none

end Json

namespace Fields

def required {α : Type} (fields : Fields) (name : String) (read : Json → Option α) : Option α :=
  (fields.lookup name).bind read

-- A missing field takes the default. One that is there but cannot be read fails.
def orDefault {α : Type} (fields : Fields) (name : String) (read : Json → Option α)
    (default : α) : Option α :=
  match fields.lookup name with
  | none => some default
  | some value => read value

end Fields

end PacedFeed
