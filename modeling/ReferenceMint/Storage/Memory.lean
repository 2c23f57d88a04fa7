import ReferenceMint.Storage.Object

/-!
# Object storage in memory

The plain object storage: every call succeeds unless it asks for an object that is not there.
-/

namespace ReferenceMint.Storage.Memory

/-- The token that a write is refused with, if the object that stands is not what is demanded. -/
def refusal? (demand : Precondition) (current : Option Object) : Option String :=
  match demand, current with
  | .absent, some object => some (token object.version)
  | .version expected, some object =>
    if object.version ≠ versionOf expected then some (token object.version) else none
  | .version _, none => some (token 0)
  | .absent, none => none
  | .always, _ => none

/-- Writes bytes under a path, unless the write is refused. -/
def put (objects : Objects) (path : String) (data : ByteArray) (demand : Precondition) :
    PutResult × Objects :=
  let current := objects.get? path
  match refusal? demand current with
  | some version => (.refused version, objects)
  | none =>
    let object := rewritten current data
    (.written (token object.version), objects.set path object)

/-- Answers a call. -/
def answer : (c : Call) → Objects → Reply c × Objects
  | .head path, objects => (.ok ((objects.get? path).map fun o => o.info path), objects)
  | .get path, objects =>
    match objects.get? path with
    | some object => (.ok object.data, objects)
    | none => (.error (missing path), objects)
  | .put path data demand, objects =>
    let (result, objects) := put objects path data demand
    (.ok result, objects)

end ReferenceMint.Storage.Memory
