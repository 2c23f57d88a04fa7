import ReferenceMint.Json.Decoding
import ReferenceMint.Json.Reader
import ReferenceMint.Json.Writer
import ReferenceMint.Store.Location
import ReferenceMint.Store.SharedDatabase

/-!
# Database files

A file keeps a database, and either a log of its changes or none. Opening it for sharing turns the
log on, which has to be written into the file; without sharing a log cannot be read. In the end the
schema is brought up to date, which does nothing to a database that has one.

A database file is the text of one JSON record: the version of its schema, the rows of its table if
it has one, and whether it keeps a log.
-/

namespace ReferenceMint.Store

/-- A row is a record of its columns. -/
def Row.toJson (row : Row) : Json :=
  .record [("portfolio", .int row.portfolio), ("letter", .text row.letter),
    ("nextIndex", .int row.index)]

/-- Reads a row. -/
def Row.ofJson? (json : Json) : Option Row :=
  match Json.slots ["portfolio", "letter", "nextIndex"] json with
  | some [portfolio, letter, index] => do
    some ⟨← Json.required Json.toInt? portfolio, ← Json.required Json.toText? letter,
      ← Json.required Json.toInt? index⟩
  | _ => none

/-- A database as a file keeps it. -/
structure DatabaseFile where
  /-- The database. -/
  contents : Database
  /-- Whether the file keeps a log of changes. -/
  hasLog : Bool
deriving DecidableEq

/-- A database in use. -/
structure OpenDatabase where
  /-- The database with its file. -/
  file : DatabaseFile
  /-- Whether it can be written. -/
  writable : Bool
deriving DecidableEq

namespace OpenDatabase

/-- A database of a location in memory. -/
def inMemory (writable : Bool) : Except Failure OpenDatabase :=
  let obstacle := if writable then none else some Database.readOnlyDetail
  (Database.prepare .empty obstacle).2.map fun contents => ⟨⟨contents, false⟩, writable⟩

/-- Runs a program over the database that nobody else uses meanwhile. -/
def run {α : Type} (p : Program interface α) (db : OpenDatabase) : α × OpenDatabase :=
  if db.writable then
    let outcome := p.run SharedDatabase.answer (.ofDatabase db.file.contents)
    (outcome.result, { db with file.contents := outcome.state.committed })
  else ((p.run Database.answerReadOnly db.file.contents).result, db)

end OpenDatabase

namespace DatabaseFile

/-- A file without contents. -/
def empty : DatabaseFile := ⟨.empty, false⟩

/-- The failure to open a file as a database. -/
def cannotOpen : Failure := .storageWith "failed to open database" "unable to open database file"

/-- The failure to read a file as a database. -/
def notADatabase : Failure := .storageWith "failed to set pragmas" "file is not a database"

/-- The failure to turn the log on. -/
def cannotLog : Failure := .storageWith "failed to set pragmas" "unable to open database file"

/-- The detail of a failure to keep a change from being lost halfway. -/
def noJournalDetail : String := "unable to open database file"

/-- The file with its log turned on, if it is shared. A file that is taken for frozen is used as it
is. `hasRoom` says whether a file for the changes can stand next to it. -/
def logged (file : DatabaseFile) (access : FileAccess) (hasRoom : Bool) :
    Except Failure DatabaseFile :=
  if access.frozen then .ok file
  else if access.shares then
    if file.hasLog || (access.writes && hasRoom) then .ok { file with hasLog := true }
    else .error cannotLog
  else if file.hasLog then .error cannotLog
  else .ok file

/-- What keeps changes from being written, if anything does. -/
def obstacle (access : FileAccess) (hasRoom : Bool) : Option String :=
  if access.frozen || !access.writes then some Database.readOnlyDetail
  else if hasRoom then none
  else some noJournalDetail

/-- Opens a file. -/
def opened (file : DatabaseFile) (access : FileAccess) (hasRoom : Bool) :
    Except Failure OpenDatabase := do
  let file ← file.logged access hasRoom
  let contents ← (file.contents.prepare (obstacle access hasRoom)).2
  return ⟨{ file with contents }, access.writes && !access.frozen⟩

/-- A database file is a record of version, rows and log. -/
def toJson (file : DatabaseFile) : Json :=
  .record [("schemaVersion", .int file.contents.schemaVersion),
    ("rows", .optional (file.contents.table.map fun table => .array (table.map Row.toJson))),
    ("log", .bool file.hasLog)]

/-- Reads a database file. -/
def ofJson? (json : Json) : Option DatabaseFile :=
  match Json.slots ["schemaVersion", "rows", "log"] json with
  | some [version, rows, log] => do
    some ⟨⟨← Json.required Json.toInt? version,
      ← Json.required (Json.nullable (Json.toList? Row.ofJson?)) rows⟩,
      ← Json.required Json.toBool? log⟩
  | _ => none

/-- The text of a database file. -/
def text (file : DatabaseFile) : String := file.toJson.compact

/-- The database file that a text is. -/
def ofText? (text : String) : Option DatabaseFile := (Json.ofText? text).bind ofJson?

end DatabaseFile

end ReferenceMint.Store
