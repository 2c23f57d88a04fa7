import ReferenceMint.Json.Value
import ReferenceMint.Text.Numeral

/-!
# Reading JSON

The reader takes a value from the front of a text and gives back the rest. A whole text is one value
between white space. Every step of the descent consumes a character, so the length of the text
bounds its depth.
-/

namespace ReferenceMint.Json

/-- The four characters that may stand between tokens. -/
def isSpace (c : Char) : Bool := c = ' ' || c = '\n' || c = '\t' || c = '\r'

/-- The text behind the white space it starts with. -/
def skipSpace (cs : List Char) : List Char := cs.dropWhile isSpace

/-- What follows the given characters, if the text starts with them. -/
def dropWord (word cs : List Char) : Option (List Char) :=
  if word.isPrefixOf cs then some (cs.drop word.length) else none

/-- Four hexadecimal digits and what follows them. -/
def readUnit : List Char → Option (Nat × List Char)
  | a :: b :: c :: d :: cs => do
    let n ← [a, b, c, d].foldlM (fun n digit => do return 16 * n + (← Numeral.hexValue digit)) 0
    some (n, cs)
  | _ => none

/-- Whether a code unit is the first half of a surrogate pair. -/
def isLeading (n : Nat) : Bool := 0xD800 ≤ n && n < 0xDC00

/-- Whether a code unit is the second half of a surrogate pair. -/
def isTrailing (n : Nat) : Bool := 0xDC00 ≤ n && n < 0xE000

/-- What the backslash in front of `c` makes of it, where that takes one character. -/
def shortEscape (c : Char) : Option Char :=
  if c = '"' || c = '\\' || c = '/' then some c
  else if c = 'n' then some '\n'
  else if c = 't' then some '\t'
  else if c = 'r' then some '\r'
  else if c = 'b' then some '\x08'
  else if c = 'f' then some '\x0c'
  else none

/-- A character in front of a text, where both denote something. -/
def pushChar (c : Option Char) (text : Option (List Char)) : Option (List Char) := do
  some ((← c) :: (← text))

/-- The second half of a surrogate pair and what follows it. -/
def readTrailing : List Char → Option (Nat × List Char)
  | '\\' :: 'u' :: cs => do
    let (n, cs) ← readUnit cs
    if isTrailing n then some (n, cs) else none
  | _ => none

/-- Reads a string literal from behind its opening quote. A surrogate without its partner makes the
literal denote no text, and reading goes on behind it. -/
def readString : Nat → List Char → Option (Option (List Char) × List Char)
  | 0, _ => none
  | _ + 1, [] => none
  | fuel + 1, c :: cs =>
    if c = '"' then some (some [], cs)
    else if c = '\\' then
      match cs with
      | 'u' :: cs => do
        let (n, cs) ← readUnit cs
        if isLeading n then
          match readTrailing cs with
          | some (m, cs) => do
            let (text, cs) ← readString fuel cs
            some (pushChar (Char.ofNat (0x10000 + (n - 0xD800) * 0x400 + (m - 0xDC00))) text, cs)
          | none => do
            let (_, cs) ← readString fuel cs
            some (none, cs)
        else if isTrailing n then do
          let (_, cs) ← readString fuel cs
          some (none, cs)
        else do
          let (text, cs) ← readString fuel cs
          some (pushChar (Char.ofNat n) text, cs)
      | c :: cs => do
        let c ← shortEscape c
        let (text, cs) ← readString fuel cs
        some (pushChar c text, cs)
      | [] => none
    else if c.toNat < 0x20 then none
    else do
      let (text, cs) ← readString fuel cs
      some (pushChar c text, cs)

/-- The digits at the front of a text, at least one, and what follows them. -/
def readDigits (cs : List Char) : Option (List Char × List Char) :=
  let digits := cs.takeWhile Char.isDigit
  if digits.isEmpty then none else some (digits, cs.drop digits.length)

/-- A fraction, if the text starts with a point. -/
def readFraction : List Char → Option (List Char × List Char)
  | '.' :: cs => (readDigits cs).map fun (digits, cs) => ('.' :: digits, cs)
  | cs => some ([], cs)

/-- An exponent, if the text starts with its letter. -/
def readExponent : List Char → Option (List Char × List Char)
  | c :: cs =>
    if c = 'e' || c = 'E' then
      match cs with
      | '+' :: cs => (readDigits cs).map fun (digits, cs) => (c :: '+' :: digits, cs)
      | '-' :: cs => (readDigits cs).map fun (digits, cs) => (c :: '-' :: digits, cs)
      | cs => (readDigits cs).map fun (digits, cs) => (c :: digits, cs)
    else some ([], c :: cs)
  | [] => some ([], [])

/-- The digits before the point, which start with zero only for zero itself. -/
def readWhole : List Char → Option (List Char × List Char)
  | '0' :: cs => if (cs.takeWhile Char.isDigit).isEmpty then some (['0'], cs) else none
  | cs => readDigits cs

/-- Reads a number behind its sign. -/
def readUnsigned (negative : Bool) (cs : List Char) : Option (Number × List Char) := do
  let (whole, cs) ← readWhole cs
  let (fraction, cs) ← readFraction cs
  let (exponent, cs) ← readExponent cs
  some (⟨negative, Numeral.value whole, fraction ++ exponent⟩, cs)

/-- Reads a number. -/
def readNumber : List Char → Option (Number × List Char)
  | '-' :: cs => readUnsigned true cs
  | cs => readUnsigned false cs

/-- Reads the name of a member and the colon behind it. -/
def readName (fuel : Nat) (cs : List Char) : Option (Option String × List Char) :=
  match skipSpace cs with
  | '"' :: cs => do
    let (name, cs) ← readString fuel cs
    match skipSpace cs with
    | ':' :: cs => some (name.map String.ofList, cs)
    | _ => none
  | _ => none

mutual

/-- Reads a value, with white space allowed in front of it. -/
def readValue : Nat → List Char → Option (Json × List Char)
  | 0, _ => none
  | fuel + 1, cs =>
    match skipSpace cs with
    | [] => none
    | c :: cs =>
      if c = 'n' then (dropWord "ull".toList cs).map fun cs => (.null, cs)
      else if c = 't' then (dropWord "rue".toList cs).map fun cs => (.bool true, cs)
      else if c = 'f' then (dropWord "alse".toList cs).map fun cs => (.bool false, cs)
      else if c = '"' then
        (readString (cs.length + 1) cs).map fun (text, cs) => (.string (text.map String.ofList), cs)
      else if c = '[' then
        match skipSpace cs with
        | ']' :: cs => some (.array [], cs)
        | cs => (readItems fuel cs).map fun (items, cs) => (.array items, cs)
      else if c = '\x7b' then
        match skipSpace cs with
        | '\x7d' :: cs => some (.object [], cs)
        | cs => (readMembers fuel cs).map fun (members, cs) => (.object members, cs)
      else (readNumber (c :: cs)).map fun (n, cs) => (.number n, cs)

/-- Reads the items of an array and its closing bracket. -/
def readItems : Nat → List Char → Option (List Json × List Char)
  | 0, _ => none
  | fuel + 1, cs => do
    let (item, cs) ← readValue fuel cs
    match skipSpace cs with
    | ',' :: cs => (readItems fuel cs).map fun (items, cs) => (item :: items, cs)
    | ']' :: cs => some ([item], cs)
    | _ => none

/-- Reads the members of an object and its closing brace. -/
def readMembers : Nat → List Char → Option (List (Option String × Json) × List Char)
  | 0, _ => none
  | fuel + 1, cs => do
    let (name, cs) ← readName (cs.length + 1) cs
    let (value, cs) ← readValue fuel cs
    match skipSpace cs with
    | ',' :: cs => (readMembers fuel cs).map fun (members, cs) => ((name, value) :: members, cs)
    | '\x7d' :: cs => some ([(name, value)], cs)
    | _ => none

end

/-- The value that the characters are the text of. -/
def ofChars? (cs : List Char) : Option Json :=
  match readValue (2 * cs.length + 1) cs with
  | some (value, rest) => if (skipSpace rest).isEmpty then some value else none
  | none => none

/-- The value with the given text: nothing but white space may stand around it. -/
def ofText? (text : String) : Option Json := ofChars? text.toList

end ReferenceMint.Json
