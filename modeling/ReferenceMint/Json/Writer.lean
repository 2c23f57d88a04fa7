import ReferenceMint.Json.Value
import ReferenceMint.Text.Numeral

/-!
# Writing JSON

A value is written without any white space, or spread over lines with two spaces for each level.
Strings escape the quote, the backslash and the control characters, five of which have short forms;
every other character stands for itself.
-/

namespace ReferenceMint.Json

/-- The four hexadecimal digits of a control character, in lower case. -/
def controlDigits (c : Char) : List Char := (Nat.toDigits 16 c.toNat).leftpad 4 '0'

/-- One character of a string literal. -/
def writeChar (c : Char) : List Char :=
  if c = '"' then ['\\', '"']
  else if c = '\\' then ['\\', '\\']
  else if c = '\n' then ['\\', 'n']
  else if c = '\r' then ['\\', 'r']
  else if c = '\t' then ['\\', 't']
  else if c = '\x08' then ['\\', 'b']
  else if c = '\x0c' then ['\\', 'f']
  else if c.toNat < 0x20 then '\\' :: 'u' :: controlDigits c
  else [c]

/-- A string literal. The one that denotes no text is half of a surrogate pair. -/
def writeString : Option String → List Char
  | some s => '"' :: s.toList.flatMap writeChar ++ ['"']
  | none => "\"\\ud800\"".toList

/-- A number as it was written. -/
def Number.chars (n : Number) : List Char :=
  (if n.negative then ['-'] else []) ++ Numeral.digits n.whole ++ n.scaling

/-- A truth value. -/
def writeBool (b : Bool) : List Char := if b then "true".toList else "false".toList

mutual

/-- A value without white space. -/
def chars : Json → List Char
  | .null => "null".toList
  | .bool b => writeBool b
  | .number n => n.chars
  | .string s => writeString s
  | .array items => '[' :: (charsOfItems items ++ [']'])
  | .object members => '\x7b' :: (charsOfMembers members ++ ['\x7d'])

/-- The items of an array, with commas between them. -/
def charsOfItems : List Json → List Char
  | [] => []
  | [item] => chars item
  | item :: items => chars item ++ ',' :: charsOfItems items

/-- The members of an object, with commas between them. -/
def charsOfMembers : List (Option String × Json) → List Char
  | [] => []
  | [member] => charsOfMember member
  | member :: members => charsOfMember member ++ ',' :: charsOfMembers members

/-- A member of an object: the name and the value. -/
def charsOfMember : Option String × Json → List Char
  | (name, value) => writeString name ++ ':' :: chars value

end

/-- The text of a value, without white space. -/
def compact (value : Json) : String := String.ofList (chars value)

/-- The start of a line at the given level. -/
def newLine (level : Nat) : List Char := '\n' :: List.replicate (2 * level) ' '

mutual

/-- A value spread over lines, at the given level. -/
def spread (level : Nat) : Json → List Char
  | .null => "null".toList
  | .bool b => writeBool b
  | .number n => n.chars
  | .string s => writeString s
  | .array [] => ['[', ']']
  | .array items => '[' :: (spreadItems (level + 1) items ++ newLine level ++ [']'])
  | .object [] => ['\x7b', '\x7d']
  | .object members => '\x7b' :: (spreadMembers (level + 1) members ++ newLine level ++ ['\x7d'])

/-- The items of an array, each on a line of its own. -/
def spreadItems (level : Nat) : List Json → List Char
  | [] => []
  | [item] => newLine level ++ spread level item
  | item :: items => newLine level ++ spread level item ++ ',' :: spreadItems level items

/-- The members of an object, each on a line of its own. -/
def spreadMembers (level : Nat) : List (Option String × Json) → List Char
  | [] => []
  | [member] => newLine level ++ spreadMember level member
  | member :: members =>
    newLine level ++ spreadMember level member ++ ',' :: spreadMembers level members

/-- A member of an object: the name, a colon, a space and the value. -/
def spreadMember (level : Nat) : Option String × Json → List Char
  | (name, value) => writeString name ++ ':' :: ' ' :: spread level value

end

/-- The text of a value, spread over lines. -/
def pretty (value : Json) : String := String.ofList (spread 0 value)

end ReferenceMint.Json
