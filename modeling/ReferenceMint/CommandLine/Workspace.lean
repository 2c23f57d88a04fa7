import ReferenceMint.CommandLine.Path
import ReferenceMint.Store.DatabaseFile

/-!
# Workspaces

The files that commands work on. What a file holds decides what can be done with it: a text, a
database, or something else. A directory is there if it says so or if a file is in it.

A text is found by walking: every step of its path starts in a directory. A database is found by its
path alone: a step back undoes the step before it, whether or not that one led anywhere.
-/

namespace ReferenceMint.CommandLine

open Store (DatabaseFile FileAccess Location OpenDatabase)

/-- What stands under a path. -/
inductive Content where
  | directory
  | text (s : String)
  | database (file : DatabaseFile)
  /-- Bytes that are neither. -/
  | other
deriving DecidableEq

/-- Files under their paths. -/
abbrev Workspace := List (Path × Content)

namespace Workspace

/-- The contents of a file. -/
def get? (w : Workspace) (path : Path) : Option Content := w.lookup path

/-- The workspace with other contents of a file. -/
def set (w : Workspace) (path : Path) (content : Content) : Workspace :=
  (path, content) :: w.filter fun file => file.1 ≠ path

/-- Whether a path names a directory: the one at hand, one that it is in, one that says so, or one
with a file somewhere in it. -/
def isDirectory (w : Workspace) (path : Path) : Bool :=
  path = .root || path.all (· = .back) || w.get? path = some .directory ||
    w.any fun file => path.isPrefixOf file.1 && file.1 ≠ path

/-! ## Texts -/

/-- The path of a file to read: every step starts in a directory. -/
def textPath? (w : Workspace) (written : List UInt8) : Option Path :=
  Path.follow? (fun path _ => w.isDirectory path) (.start written) (Path.names written)

/-- The text of a file. -/
def readText? (w : Workspace) (written : String) : Option String :=
  match (w.textPath? (Text.bytes written)).bind w.get? with
  | some (.text s) => some s
  | _ => none

/-! ## Databases -/

/-- Whether a step to a name may be on the path of a database: the name is not too long, and it does
not start from a file. Steps that lead nowhere or back may always be. -/
def mayStep (w : Workspace) (path : Path) (name : FileName) : Bool :=
  !FileName.leadsOn name ||
    (name.length ≤ FileName.maxLength && (w.isDirectory path || (w.get? path).isNone))

/-- The path of a database. -/
def databasePath? (w : Workspace) (written : List UInt8) : Option Path :=
  Path.follow? w.mayStep (.start written) (Path.names written)

/-- The database that a file holds. A file of one byte at most is a database without contents. -/
def fileOf : Content → Except Failure DatabaseFile
  | .database file => .ok file
  | .text s => if s.utf8ByteSize ≤ 1 then .ok .empty else .error DatabaseFile.notADatabase
  | .other => .error DatabaseFile.notADatabase
  | .directory => .error DatabaseFile.cannotOpen

/-- Whether a file for the changes of a database can stand next to it: its name has eight bytes
more. -/
def hasRoomNextTo (path : Path) : Bool :=
  (path.getLast?.getD []).length + 8 ≤ FileName.maxLength

/-- Opens the file under a path as a database. A file that is not there is created without contents
at first, and stays so if it cannot be opened. -/
def openFile (w : Workspace) (path : Path) (access : FileAccess) :
    Workspace × Except Failure OpenDatabase :=
  if w.isDirectory path || !w.isDirectory path.dropLast then (w, .error DatabaseFile.cannotOpen)
  else if (w.get? path).isNone && !access.creates then (w, .error DatabaseFile.cannotOpen)
  else
    let content := (w.get? path).getD (.text "")
    let opened := do (← fileOf content).opened access (hasRoomNextTo path)
    (w.set path content, opened)

/-- Opens the database of a name, and says where it is kept if it is kept. -/
def openDatabase (w : Workspace) (name : String) :
    Workspace × Except Failure (Option Path × OpenDatabase) :=
  match Location.ofName? name with
  | none => (w, .error DatabaseFile.cannotOpen)
  | some (.memory writable) =>
    (w, (OpenDatabase.inMemory writable).map fun db => (none, db))
  | some (.file written access) =>
    match w.databasePath? written with
    | none => (w, .error DatabaseFile.cannotOpen)
    | some path =>
      let (w, opened) := w.openFile path access
      (w, opened.map fun db => (some path, db))

/-- The workspace after a database was used. -/
def keep (w : Workspace) (place : Option Path) (db : OpenDatabase) : Workspace :=
  match place with
  | some path => w.set path (.database db.file)
  | none => w

/-- The paths that the name of a database leads through. -/
def databaseStages (name : String) : List Path :=
  match Location.ofName? name with
  | some (.file written _) => Path.stages written
  | _ => []

end Workspace

end ReferenceMint.CommandLine
