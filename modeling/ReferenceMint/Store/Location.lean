import ReferenceMint.Text.Blank
import ReferenceMint.Text.Bytes

/-!
# Names of databases

The name of a database is the path of a file, or a word for a database in memory, or a URI. A URI
starts with `file:`, behind which may stand an authority, then a path, options behind a question
mark, and a fragment that says nothing. The options say what the database is opened for and how it
is protected against other programs. They are taken one after the other, and an option that is not
known says nothing either.
-/

namespace ReferenceMint.Store

open Text (bytes percentDecoded)

/-- How a database file is opened. -/
structure FileAccess where
  /-- Whether it may be written. -/
  writes : Bool
  /-- Whether it is created if it is not there. -/
  creates : Bool
  /-- Whether it is taken for a file that nobody changes: then it is not written either. -/
  frozen : Bool
  /-- Whether it is shared with other programs: only then can it keep a log of its changes. -/
  shares : Bool
deriving DecidableEq

/-- Where a database is. -/
inductive Location where
  /-- In memory, as long as it is in use. -/
  | memory (writes : Bool)
  /-- In a file. -/
  | file (path : List UInt8) (access : FileAccess)
deriving DecidableEq

/-- An option of a URI: its name and its value. -/
abbrev UriOption := List UInt8 × List UInt8

/-- What a database is opened for. -/
inductive Purpose where
  /-- To read a file. -/
  | read
  /-- To read and write a file. -/
  | write
  /-- To read and write a file, which is created if it is not there. -/
  | create
  /-- To read and write in memory. -/
  | scratch
deriving DecidableEq

namespace Purpose

/-- The purpose that a value names. -/
def ofValue? (value : List UInt8) : Option Purpose :=
  if value = bytes "ro" then some .read
  else if value = bytes "rw" then some .write
  else if value = bytes "rwc" then some .create
  else if value = bytes "memory" then some .scratch
  else none

/-- Whether an option may turn a purpose into another: into one that asks for no more, or anything
into a database in memory and a database in memory into anything. -/
def mayTurnInto : Purpose → Purpose → Bool
  | .read, .write | .read, .create | .write, .create => false
  | _, _ => true

/-- The purpose after an option; `none` if the option cannot be followed. -/
def after (purpose : Purpose) (option : UriOption) : Option Purpose :=
  if option.1 = bytes "mode" then (ofValue? option.2).filter purpose.mayTurnInto
  else some purpose

end Purpose

/-- How a database is protected against other programs. -/
inductive Protection where
  /-- By locks, which allow other programs to use it too. -/
  | locks
  /-- In a way that leaves no room for other programs. -/
  | alone
  /-- By being in memory. -/
  | memory
deriving DecidableEq

/-- The protection that a value names. -/
def Protection.ofValue? (value : List UInt8) : Option Protection :=
  if value = bytes "unix" || value = bytes "unix-excl" then some .locks
  else if value = bytes "unix-none" || value = bytes "unix-dotfile" then some .alone
  else if value = bytes "memdb" then some .memory
  else none

namespace UriOption

/-- The options in a text, with ampersands between them. One without a name is left out. -/
def readAll (cs : List Char) : List UriOption :=
  ((Text.splitAt '&' cs).map fun piece =>
    match Text.cutAt '=' piece with
    | some (name, value) => (percentDecoded name, percentDecoded value)
    | none => (percentDecoded piece, [])).filter fun option => option.1 ≠ []

/-- The number that a value starts with, in decimal digits or behind `0x` in hexadecimal ones. -/
def leadingNumber (cs : List Char) : Nat :=
  let hexadecimal (cs : List Char) : List Nat :=
    (cs.takeWhile fun c => (Numeral.hexValue c).isSome).filterMap Numeral.hexValue
  match cs with
  | '0' :: x :: rest =>
    if x.toLower = 'x' && hexadecimal rest ≠ [] then
      (hexadecimal rest).foldl (fun n digit => 16 * n + digit) 0
    else Numeral.value (cs.takeWhile Char.isDigit)
  | _ => Numeral.value (cs.takeWhile Char.isDigit)

/-- Whether a value says yes, in a word or as a number. Of a number the last byte counts, and one of
more than thirty-one bits says no. -/
def saysYes (value : List UInt8) : Bool :=
  let cs := value.map fun byte => Char.ofNat byte.toNat
  if cs.head?.any Char.isDigit then
    leadingNumber cs ≤ Numeral.highest 2 31 && leadingNumber cs % 256 ≠ 0
  else ["on", "yes", "true"].contains (String.ofList (cs.map Char.toLower))

/-- Whether the first option with a name says yes. -/
def isOn (options : List UriOption) (name : String) : Bool :=
  match options.find? fun option => option.1 = bytes name with
  | some option => saysYes option.2
  | none => false

/-- The protection that the last option for it names. -/
def protection? (options : List UriOption) : Option Protection :=
  match (options.filter fun option => option.1 = bytes "vfs").getLast? with
  | some option => Protection.ofValue? option.2
  | none => some .locks

/-- Whether every option for the cache names one that there is; it makes no other difference. -/
def cacheKnown (options : List UriOption) : Bool :=
  options.all fun option => option.1 ≠ bytes "cache" ||
    [bytes "shared", bytes "private"].contains option.2

end UriOption

namespace Location

/-- The name of a database in memory. -/
def inMemory : String := ":memory:"

/-- What follows the authority of a URI, if the authority is this machine. -/
def withoutAuthority : List Char → Option (List Char)
  | '/' :: '/' :: cs =>
    if ["", "localhost"].contains (String.ofList (cs.takeWhile (· ≠ '/'))) then
      some (cs.dropWhile (· ≠ '/'))
    else none
  | cs => some cs

/-- The location with a path and options. Without a path a database is in memory too. -/
def ofParts? (path : List UInt8) (options : List UriOption) : Option Location := do
  let purpose ← options.foldlM Purpose.after .create
  let protection ← UriOption.protection? options
  if !UriOption.cacheKnown options then failure
  let frozen := UriOption.isOn options "immutable"
  if purpose = .scratch || path = [] || path = bytes inMemory then
    return .memory (purpose ≠ .read)
  if protection = .memory then
    return .memory (purpose ≠ .read && !frozen)
  return .file path {
    writes := purpose ≠ .read
    creates := purpose = .create
    frozen
    shares := protection = .locks && !UriOption.isOn options "nolock" }

/-- The location that a URI says, without the word that it starts with. -/
def ofUri? (cs : List Char) : Option Location := do
  let cs := (← withoutAuthority cs).takeWhile (· ≠ '#')
  ofParts? (percentDecoded (cs.takeWhile (· ≠ '?')))
    (UriOption.readAll ((cs.dropWhile (· ≠ '?')).drop 1))

/-- The location that a name says. No name has a null character in it. -/
def ofName? (name : String) : Option Location :=
  if name.toList.contains '\x00' then none
  else match name.toList with
    | 'f' :: 'i' :: 'l' :: 'e' :: ':' :: cs => ofUri? cs
    | _ => ofParts? (bytes name) []

end Location

end ReferenceMint.Store
