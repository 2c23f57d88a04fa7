import ReferenceMint.Json.Value
import ReferenceMint.Text.Numeral

/-!
# Decoding JSON values

A record is written as an object, whose other members are ignored and whose own members occur at
most once, or as an array of its fields in order, of which the last ones may be missing. Either way
it comes down to one slot for each field, filled or not; a field says what it makes of its slot.
-/

namespace ReferenceMint.Json

/-- The values of the members with the given name. -/
def valuesOf (name : String) (members : List (Option String × Json)) : List Json :=
  members.filterMap fun (key, value) => if key = some name then some value else none

/-- The slot of the field with the given name: there is none when the name is repeated. -/
def slotOf (members : List (Option String × Json)) (name : String) : Option (Option Json) :=
  match valuesOf name members with
  | [] => some none
  | [value] => some (some value)
  | _ => none

/-- The slots of a record with the given field names. -/
def slots (names : List String) : Json → Option (List (Option Json))
  | .object members =>
    if members.all fun member => member.1.isSome then names.mapM (slotOf members) else none
  | .array items =>
    if items.length ≤ names.length then
      some (items.map some ++ List.replicate (names.length - items.length) none)
    else none
  | _ => none

/-- A field that must be present. -/
def required {α : Type} (decode : Json → Option α) (slot : Option Json) : Option α :=
  slot.bind decode

/-- A field that has a value of its own when it is absent. -/
def defaulted {α : Type} (value : α) (decode : Json → Option α) : Option Json → Option α
  | none => some value
  | some json => decode json

/-- A value that may also be the literal for no value. -/
def nullable {α : Type} (decode : Json → Option α) : Json → Option (Option α)
  | .null => some none
  | json => (decode json).map some

/-- The number up to `limit`, written without sign, fraction and exponent. -/
def toNat? (limit : Nat) : Json → Option Nat
  | .number ⟨false, n, []⟩ => if n ≤ limit then some n else none
  | _ => none

/-- The integer with a minus sign or without, written without fraction and exponent. -/
def toInt? : Json → Option Int
  | .number ⟨false, n, []⟩ => some n
  | .number ⟨true, n, []⟩ => some (-n)
  | _ => none

/-- The number of eight bits. -/
def toUInt8? (json : Json) : Option UInt8 := (json.toNat? (Numeral.highest 2 8)).map UInt8.ofNat

/-- The number of sixteen bits. -/
def toUInt16? (json : Json) : Option UInt16 := (json.toNat? (Numeral.highest 2 16)).map UInt16.ofNat

/-- The number of thirty-two bits. -/
def toUInt32? (json : Json) : Option UInt32 := (json.toNat? (Numeral.highest 2 32)).map UInt32.ofNat

/-- The number of sixty-four bits. -/
def toUInt64? (json : Json) : Option UInt64 := (json.toNat? (Numeral.highest 2 64)).map UInt64.ofNat

/-- The text of a string. -/
def toText? : Json → Option String
  | .string text => text
  | _ => none

/-- The truth value. -/
def toBool? : Json → Option Bool
  | .bool b => some b
  | _ => none

/-- The character of a string that has exactly one. -/
def toChar? (json : Json) : Option Char :=
  match json.toText?.map String.toList with
  | some [c] => some c
  | _ => none

/-- The items of an array, each decoded. -/
def toList? {α : Type} (decode : Json → Option α) : Json → Option (List α)
  | .array items => items.mapM decode
  | _ => none

/-- The value of the first member with the given name. -/
def member? (name : String) : Json → Option Json
  | .object members => members.findSome? fun (key, value) =>
      if key = some name then some value else none
  | _ => none

end ReferenceMint.Json
