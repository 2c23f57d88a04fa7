import ReferenceMint.Failure
import ReferenceMint.Program

/-!
# Object storage

Object storage keeps bytes under paths. Each write of an object gives it a new version, and a write
may demand that the object is absent or still has a given version. A demand that does not hold is no
failure: the write is refused and the version that stands is reported. Versions are handed out as
tokens, which a caller only passes back.
-/

namespace ReferenceMint.Storage

/-- What a write demands of the object it replaces. -/
inductive Precondition where
  /-- There is no object. -/
  | absent
  /-- The object has the version of the token. -/
  | version (token : String)
  /-- Nothing. -/
  | always
deriving DecidableEq

/-- What became of a write. -/
inductive PutResult where
  /-- The object was written and now has the version of the token. -/
  | written (version : String)
  /-- The demand does not hold; the object has the version of the token. -/
  | refused (current : String)
deriving DecidableEq

/-- What is known about an object besides its bytes. -/
structure ObjectInfo where
  path : String
  /-- The size in bytes. -/
  size : Nat
  /-- The version, as a token. -/
  version : String
deriving DecidableEq

/-- The calls on object storage. -/
inductive Call where
  /-- What is known about the object under the path? -/
  | head (path : String)
  /-- What are the bytes of the object under the path? -/
  | get (path : String)
  /-- Write bytes under the path, if what is demanded holds. -/
  | put (path : String) (data : ByteArray) (demand : Precondition)

/-- What answers a call. -/
def Reply : Call → Type
  | .head _ => Except Failure (Option ObjectInfo)
  | .get _ => Except Failure ByteArray
  | .put .. => Except Failure PutResult

/-- The interface of object storage. -/
abbrev interface : Interface := ⟨Call, Reply⟩

/-- A stored object. -/
structure Object where
  data : ByteArray
  /-- How often the object was written. -/
  version : Nat

/-- The token of a version. -/
def token (version : Nat) : String := Numeral.text version

/-- The version of a token; a text that is no token has one that no object has. -/
def versionOf (token : String) : Int :=
  match Numeral.readInt64 token.toList with
  | .ok n => n
  | .error _ => -1

/-- Whether a demand holds of the object that stands. -/
def Precondition.holds (demand : Precondition) (current : Option Object) : Bool :=
  match demand, current with
  | .always, _ => true
  | .absent, none => true
  | .absent, some _ => false
  | .version _, none => false
  | .version token, some object => (object.version : Int) = versionOf token

/-- The token of the version that stands, zero where there is no object. -/
def currentToken (current : Option Object) : String := token ((current.map Object.version).getD 0)

/-- The object with new bytes. -/
def rewritten (current : Option Object) (data : ByteArray) : Object :=
  ⟨data, (current.map Object.version).getD 0 + 1⟩

/-- What is known about an object under a path. -/
def Object.info (object : Object) (path : String) : ObjectInfo :=
  ⟨path, object.data.size, token object.version⟩

/-- There is no object under the path. -/
def missing (path : String) : Failure := .missing ("object not found: " ++ path)

/-- Objects under paths, each path at most once. -/
abbrev Objects := List (String × Object)

namespace Objects

/-- The object under a path. -/
def get? (objects : Objects) (path : String) : Option Object := objects.lookup path

/-- The objects with another one under the path. -/
def set (objects : Objects) (path : String) (object : Object) : Objects :=
  match objects with
  | [] => [(path, object)]
  | (other, o) :: rest =>
    if other = path then (path, object) :: rest else (other, o) :: set rest path object

/-- The paths in ascending order. -/
def paths (objects : Objects) : List String := (objects.map Prod.fst).mergeSort

end Objects

end ReferenceMint.Storage
