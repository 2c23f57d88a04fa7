/-!
# JSON values

A value keeps what its text fixes: the members of an object in order, repeated names included, and
the digits of a number. A string literal can name half of a surrogate pair; it then denotes no text,
and its value says so.
-/

namespace ReferenceMint

/-- A number as it is written. -/
structure Json.Number where
  /-- Whether a minus sign stands in front. -/
  negative : Bool
  /-- The digits before the point. -/
  whole : Nat
  /-- The characters of the fraction and the exponent. -/
  scaling : List Char
deriving DecidableEq

/-- A JSON value. -/
inductive Json where
  /-- The literal for no value. -/
  | null
  /-- A truth value. -/
  | bool (b : Bool)
  | number (n : Json.Number)
  /-- The text of a string literal, or none when the literal denotes no text. -/
  | string (text : Option String)
  /-- The items of an array. -/
  | array (items : List Json)
  /-- The members of an object, each with the text of its name. -/
  | object (members : List (Option String × Json))

namespace Json

/-- The string with the text `s`. -/
def text (s : String) : Json := .string (some s)

/-- The number `n`. -/
def nat (n : Nat) : Json := .number ⟨false, n, []⟩

/-- The number `i`. -/
def int (i : Int) : Json := .number ⟨i < 0, i.natAbs, []⟩

/-- The object with the given members. -/
def record (members : List (String × Json)) : Json :=
  .object (members.map fun (name, value) => (some name, value))

/-- The value, or the literal for no value. -/
def optional (value : Option Json) : Json := value.getD .null

end Json

end ReferenceMint
