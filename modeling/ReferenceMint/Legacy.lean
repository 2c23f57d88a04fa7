import ReferenceMint.Text.Blank
import ReferenceMint.Text.Numeral

/-!
# Legacy records

Records from before references existed are listed in a text, one a line: an identifier, and behind a
comma the reference the record already has, if it has one. Blank lines and lines that start with a
number sign are skipped, and white space around an identifier or a reference does not count.
-/

namespace ReferenceMint

/-- A record that may lack a reference. -/
structure LegacyRecord where
  /-- The identifier of the record. -/
  id : String
  /-- The reference the record already has. -/
  reference : Option String
deriving DecidableEq

/-- A line of a list of records has no identifier. -/
structure MissingId where
  /-- The number of the line, from one. -/
  line : Nat
deriving DecidableEq

/-- The message for a line without identifier. -/
def MissingId.message (e : MissingId) : String :=
  "line " ++ Numeral.text e.line ++ ": record id is empty"

namespace LegacyRecord

/-- What a line holds: nothing, a record, or a record without identifier. -/
inductive Line where
  /-- Nothing to read. -/
  | skipped
  | record (r : LegacyRecord)
  /-- Something without an identifier. -/
  | missingId
deriving DecidableEq

/-- A record with the given characters; an empty reference is none. -/
def ofParts (id reference : List Char) : Line :=
  if id.isEmpty then .missingId
  else .record ⟨String.ofList id,
    if reference.isEmpty then none else some (String.ofList reference)⟩

/-- Reads a line. -/
def readLine (line : List Char) : Line :=
  match Text.trim line with
  | [] | '#' :: _ => .skipped
  | line =>
    match Text.cutAt ',' line with
    | some (id, reference) => ofParts (Text.trim id) (Text.trim reference)
    | none => ofParts line []

/-- Reads the lines from the one with the given number on. -/
def readLines : Nat → List (List Char) → Except MissingId (List LegacyRecord)
  | _, [] => .ok []
  | number, line :: rest =>
    match readLine line with
    | .skipped => readLines (number + 1) rest
    | .record r => (readLines (number + 1) rest).map (r :: ·)
    | .missingId => .error ⟨number⟩

/-- Reads a list of records. The first line without identifier is an error. -/
def readAll (text : String) : Except MissingId (List LegacyRecord) :=
  readLines 1 (Text.lines text.toList)

end LegacyRecord

end ReferenceMint
