import ReferenceMint.Text.Blank
import ReferenceMint.Text.Bytes

/-!
# Paths

A path is the way to a file, name by name, from the directory at hand or from the root of all. In a
written path a slash stands between two names; an empty name and a single point lead nowhere, and
two points lead one step back. So many written paths lead the same way, which is kept without
detours.
-/

namespace ReferenceMint.CommandLine

/-- A name in a directory. -/
abbrev FileName := List UInt8

/-- The names on a way. An empty name stands for the root and can only be the first; two points lead
out of the directory at hand and stand in front of all other names. -/
abbrev Path := List FileName

/-- The name that leads nowhere, besides the empty name. -/
def FileName.here : FileName := Text.bytes "."

/-- The name that leads one step back. -/
def FileName.back : FileName := Text.bytes ".."

/-- Whether a name leads on: it leads neither nowhere nor back. -/
def FileName.leadsOn (name : FileName) : Bool := name ≠ [] && name ≠ .here && name ≠ .back

/-- The longest name that a directory can hold. -/
def FileName.maxLength : Nat := 255

namespace Path

/-- The slash between two names. -/
def slash : UInt8 := UInt8.ofNat '/'.toNat

/-- The root of all directories. -/
def root : Path := [[]]

/-- The names in a written path. -/
def names (written : List UInt8) : List FileName := Text.splitAt slash written

/-- Where a written path starts. -/
def start (written : List UInt8) : Path := if written.head? = some slash then root else []

/-- The way one step back. There is nothing behind the root. -/
def parent (path : Path) : Path :=
  match path.getLast? with
  | none => [.back]
  | some [] => root
  | some name => if name = .back then path ++ [.back] else path.dropLast

/-- The way after one more name. -/
def step (path : Path) (name : FileName) : Path :=
  if FileName.leadsOn name then path ++ [name]
  else if name = .back then path.parent
  else path

/-- The way along further names, if every step is allowed. -/
def follow? (allowed : Path → FileName → Bool) : Path → List FileName → Option Path
  | path, [] => some path
  | path, name :: rest =>
    if allowed path name then follow? allowed (path.step name) rest else none

/-- The path that a text writes. -/
def ofText (s : String) : Path := (names (Text.bytes s)).foldl step (start (Text.bytes s))

/-- The paths that a written path leads through, in order. -/
def stages (written : List UInt8) : List Path := (names written).scanl step (start written)

/-- The path written out, if its bytes are those of a text. -/
def text? (path : Path) : Option String :=
  if path = [] then some "."
  else if path = root then some "/"
  else String.fromUTF8? (List.toByteArray (List.intercalate [slash] path))

end Path

end ReferenceMint.CommandLine
