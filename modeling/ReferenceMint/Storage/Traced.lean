import ReferenceMint.Storage.Memory

/-!
# Traced object storage

Object storage in memory that records the calls it lets through and fails on demand: for paths that
start in a given way, for every read or every write, and for conditional writes that would have
succeeded, which are then refused as if a race had been lost. A failing call changes no object.
-/

namespace ReferenceMint.Storage

/-- A recorded call. -/
inductive Operation where
  /-- A question about an object. -/
  | head (path : String)
  /-- A read. -/
  | get (path : String)
  /-- A write, with the number of bytes, what was demanded, and whether it was applied. -/
  | put (path : String) (size : Nat) (demand : Precondition) (applied : Bool)
deriving DecidableEq

/-- Whether the call changed an object. -/
def Operation.changesObject : Operation → Bool
  | .put _ _ _ applied => applied
  | _ => false

/-- Which calls fail. -/
structure Faults where
  /-- Reads fail. -/
  reads : Bool
  /-- Writes fail. -/
  writes : Bool
  /-- Conditional writes lose their race. -/
  races : Bool
deriving DecidableEq

/-- No call fails. -/
def Faults.none : Faults := ⟨false, false, false⟩

/-- Object storage with its record of calls and its controls. -/
structure Traced where
  objects : Objects
  /-- The recorded calls, the latest first. -/
  record : List Operation
  /-- The beginnings of the paths whose calls fail. -/
  failing : List String
  /-- How many conditional writes are still to lose their race. -/
  racesToLose : Nat
  /-- Which calls fail. -/
  faults : Faults

namespace Traced

/-- Empty storage that has recorded nothing and fails nothing. -/
def empty : Traced := ⟨[], [], [], 0, .none⟩

/-- The recorded calls in order. -/
def operations (t : Traced) : List Operation := t.record.reverse

/-- The number of recorded calls that changed an object. -/
def changeCount (t : Traced) : Nat := t.record.countP Operation.changesObject

/-- Whether calls on the path fail. -/
def fails (t : Traced) (path : String) : Bool :=
  t.failing.any fun start => start.toList.isPrefixOf path.toList

/-- The failure of a call on a path of a failing beginning. -/
def injectedFailure (path : String) : Failure :=
  .storage ("injected failure for path: " ++ path) none

/-- The failure of a read. -/
def readFault (path : String) : Failure := .storage ("injected read fault: " ++ path) none

/-- The failure of a write. -/
def writeFault (path : String) : Failure := .storage ("injected write fault: " ++ path) none

/-- Storage with one more recorded call. -/
def recorded (t : Traced) (op : Operation) : Traced := { t with record := op :: t.record }

/-- Whether a write that could be applied loses its race all the same, and the storage after a
forced loss is used up. Only a conditional write can lose. -/
def loseRace (t : Traced) (demand : Precondition) : Bool × Traced :=
  if demand = .always then (false, t)
  else if 0 < t.racesToLose then (true, { t with racesToLose := t.racesToLose - 1 })
  else (t.faults.races, t)

/-- A write that does not fail. -/
def put (t : Traced) (path : String) (data : ByteArray) (demand : Precondition) :
    PutResult × Traced :=
  let current := t.objects.get? path
  let size := data.size
  if demand.holds current then
    -- Only a write that could be applied uses up a forced loss.
    let (lost, t) := t.loseRace demand
    if lost then (.refused (currentToken current), t.recorded (.put path size demand false))
    else
      let object := rewritten current data
      (.written (token object.version),
        { t with objects := t.objects.set path object }.recorded (.put path size demand true))
  else (.refused (currentToken current), t.recorded (.put path size demand false))

/-- Answers a call. -/
def answer : (c : Call) → Traced → Reply c × Traced
  | .head path, t =>
    if t.fails path then (.error (injectedFailure path), t)
    else (.ok ((t.objects.get? path).map fun o => o.info path), t.recorded (.head path))
  | .get path, t =>
    if t.fails path then (.error (injectedFailure path), t)
    else if t.faults.reads then (.error (readFault path), t)
    else
      match t.objects.get? path with
      | some object => (.ok object.data, t.recorded (.get path))
      | none => (.error (missing path), t.recorded (.get path))
  | .put path data demand, t =>
    if t.fails path then (.error (injectedFailure path), t)
    else if t.faults.writes then (.error (writeFault path), t)
    else
      let (result, t) := t.put path data demand
      (.ok result, t)

/-- The settings that make calls fail. -/
inductive Control where
  /-- Calls on paths with the beginning fail. -/
  | failPaths (start : String)
  /-- No call fails for its path. -/
  | healPaths
  /-- The next conditional writes that could be applied lose their race. -/
  | loseRaces (count : Nat)
  /-- These calls fail. -/
  | setFaults (faults : Faults)
  /-- The record is empty. -/
  | clearRecord
deriving DecidableEq

/-- Storage after a control was used. -/
def control (t : Traced) : Control → Traced
  | .failPaths start => { t with failing := t.failing ++ [start] }
  | .healPaths => { t with failing := [] }
  | .loseRaces count => { t with racesToLose := count }
  | .setFaults faults => { t with faults }
  | .clearRecord => { t with record := [] }

/-- Whether no recorded call changed an object. -/
def noChanges (operations : List Operation) : Bool := !operations.any Operation.changesObject

/-- Whether no call was recorded. -/
def untouched (operations : List Operation) : Bool := operations.isEmpty

end Traced

end ReferenceMint.Storage
