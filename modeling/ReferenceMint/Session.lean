import ReferenceMint.Backfill
import ReferenceMint.Race
import ReferenceMint.Storage.Traced
import ReferenceMint.Store.LedgerStore
import ReferenceMint.Store.Rivals
import ReferenceMint.Store.SharedDatabase

/-!
# Sessions

A session is a reference service over a bucket store, used for one thing after the other. It keeps
the store, the settings in force, the rivals that are still to come, and the journal.
-/

namespace ReferenceMint

open Store (LedgerStore SharedDatabase)
open Storage (Traced)

/-- A bucket store with all that it keeps. -/
inductive Backing where
  /-- Ledgers in object storage. -/
  | objects (store : LedgerStore) (storage : Traced)
  /-- A table in a database, which others can open too if it is a file. -/
  | database (isFile : Bool) (shared : SharedDatabase)

/-- Runs a program over the bucket store. -/
def Backing.run {α : Type} (p : Program Store.interface α) :
    Backing → Program.Outcome α Backing
  | .objects store storage =>
    let outcome := (store.program p).run Storage.Traced.answer storage
    ⟨outcome.result, outcome.journal, .objects store outcome.state⟩
  | .database isFile shared =>
    let outcome := p.run SharedDatabase.answer shared
    ⟨outcome.result, outcome.journal, .database isFile outcome.state⟩

/-- Opens a database once for each of a number of processes: what is written into the journal, and
the database that they meet. -/
def openForEach : (processes : Nat) → SharedDatabase →
    List Journal.Entry × Except Failure SharedDatabase
  | 0, shared => ([], .ok shared)
  | processes + 1, shared =>
    match shared.opened with
    | (entries, .error failure) => (SharedDatabase.openingFile :: entries, .error failure)
    | (entries, .ok shared) =>
      let (later, opened) := openForEach processes shared
      (SharedDatabase.openingFile :: entries ++ later, opened)

/-- The store as a number of other processes find it: they keep their ledgers at the root, and each
of them opens a database of its own accord if it is a file. -/
def Backing.enter (processes : Nat) : Backing → List Journal.Entry × Except Failure Backing
  | .objects store storage => ([], .ok (.objects { store with folder := none } storage))
  | .database false shared => ([], .ok (.database false shared))
  | .database true shared =>
    let (entries, opened) := openForEach processes shared
    (entries, opened.map (.database true))

/-- The store after other processes have left it in the state `after`: what it keeps for itself is
as before. -/
def Backing.left : Backing → (after : Backing) → Backing
  | .objects store _, .objects _ storage => .objects store storage
  | .database isFile shared, .database _ changed =>
    .database isFile { changed with memory := shared.memory }
  | backing, _ => backing

/-- Where a session keeps its buckets. -/
inductive Place where
  /-- In object storage, in a folder or at the root. -/
  | objects (folder : Option String)
  /-- In a database of its own, in memory. -/
  | memory
  /-- In a new database file with the given version of its schema. -/
  | file (schemaVersion : Int)

/-- A registry to work with: its range and the names to register. -/
structure RegistryChoice where
  /-- The lowest code. -/
  min : UInt16
  /-- The highest code. -/
  max : UInt16
  /-- Codes with their names. -/
  names : List (Int × String)

/-- The registry of a choice. -/
def RegistryChoice.registry (c : RegistryChoice) : Except Failure Registry := do
  c.names.foldlM (fun registry (code, name) => (registry.register code name).map Prod.snd)
    (← Registry.ofRange c.min c.max)

/-- Why a session does not start. -/
inductive StartError where
  /-- The store or the registry cannot be had. -/
  | failure (cause : Failure)
  /-- The settings do not fit. -/
  | allocation (cause : AllocationError)

/-- A reference service in use. -/
structure Session where
  /-- The bucket store. -/
  backing : Backing
  /-- The configuration in force. -/
  configuration : Configuration
  /-- The settings in force. -/
  settings : Settings
  /-- The number of rivals still to come. -/
  rivals : Nat
  /-- The journal from the start. -/
  journal : List Journal.Entry
  /-- The journal since the events were last read. -/
  unread : List Journal.Entry

namespace Place

/-- The entries and the store when a place is opened. -/
def opened : Place → List Journal.Entry × Except Failure Backing
  | .objects none => ([], .ok (.objects ⟨none, .epoch⟩ .empty))
  | .objects (some folder) =>
    ([], (LedgerStore.inFolder folder .epoch).map fun store => .objects store .empty)
  | .memory =>
    let (entries, shared) := (SharedDatabase.ofDatabase .empty).opened
    (SharedDatabase.openingMemory :: entries, shared.map (.database false))
  | .file schemaVersion =>
    let (entries, shared) := (SharedDatabase.ofDatabase ⟨schemaVersion, none⟩).opened
    (SharedDatabase.openingFile :: entries, shared.map (.database true))

end Place

namespace Session

/-- The settings of a configuration, with a registry if one is chosen. -/
def settingsOf (configuration : Configuration) (choice : Option RegistryChoice) :
    Except StartError Settings :=
  match configuration.settings with
  | .error e => .error (.allocation (.configuration e))
  | .ok settings =>
    match choice with
    | none => .ok settings
    | some choice =>
      match choice.registry with
      | .error failure => .error (.failure failure)
      | .ok registry =>
        (settings.setRegistry registry).mapError fun e => .allocation (.configuration e)

/-- Starts a session: the store is opened before the settings are looked at. -/
def start (place : Place) (configuration : Configuration) (choice : Option RegistryChoice) :
    Except StartError Session :=
  match place.opened with
  | (_, .error failure) => .error (.failure failure)
  | (entries, .ok backing) =>
    (settingsOf configuration choice).map fun settings =>
      ⟨backing, configuration, settings, 0, entries, entries⟩

/-- The session with more entries in its journal. -/
def noted (s : Session) (entries : List Journal.Entry) : Session :=
  { s with journal := s.journal ++ entries, unread := s.unread ++ entries }

/-- Runs a program in the session, with the rivals that are still to come. -/
def perform {α : Type} (s : Session) (p : Program Store.interface α) : α × Session :=
  let outcome := s.backing.run (Store.withRivals s.rivals p)
  (outcome.result.1,
    { s with backing := outcome.state, rivals := outcome.result.2 }.noted outcome.journal)

/-- The session with more rivals to come. -/
def withRivals (s : Session) (rivals : Nat) : Session := { s with rivals }

/-- The session with another configuration. -/
def reconfigure (s : Session) (configuration : Configuration) :
    Except AllocationError Session :=
  match configuration.settings with
  | .ok settings => .ok { s with configuration, settings }
  | .error e => .error (.configuration e)

/-- The session with its database opened anew, and the settings of its configuration. The opening is
written into the journal, even if it fails and the session goes on as before. -/
def reopen (s : Session) : Option Failure × Session :=
  match s.backing with
  | .objects .. => (none, s)
  | .database isFile shared =>
    let (entries, opened) := shared.opened
    let s := s.noted (SharedDatabase.openingFile :: entries)
    match opened with
    | .error failure => (some failure, s)
    | .ok shared =>
      (none, { s with
        backing := .database isFile shared
        settings := s.configuration.settings.toOption.getD s.settings })

/-- A claim for a portfolio whose caller goes away while another program holds the lock on the
database; without database nothing happens. -/
def abandon (s : Session) (portfolio : PortfolioCode) : Session :=
  match s.backing with
  | .objects .. => s
  | .database isFile shared =>
    let (entries, shared) := shared.abandon portfolio s.settings.capacity
    { s with backing := .database isFile shared }.noted entries

/-- A race of processes over the store, and what they issued and met. The processes meet no rivals.
-/
def race (s : Session) (code : Int) (processes count : Nat) :
    Except AllocationError (List ProcessResult × Session) :=
  match s.configuration.racing.settings with
  | .error e => .error (.configuration e)
  | .ok settings =>
    match s.backing.enter processes with
    | (_, .error failure) => .error (.ofFailure failure)
    | (entries, .ok backing) =>
      let outcome := backing.run (settings.race code count processes)
      .ok (outcome.result,
        { s with backing := s.backing.left outcome.state }.noted (entries ++ outcome.journal))

/-- The events since they were last read, and the session with all of them read. -/
def readEvents (s : Session) : List (Journal.Event × List Journal.Span) × Session :=
  (Journal.events [] s.unread, { s with unread := [] })

end Session

end ReferenceMint
