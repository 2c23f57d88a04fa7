import ReferenceMint.Store.Table

/-!
# Databases

A database holds the table of buckets, and the version of its schema says whether it does. A claim
runs in one transaction: it reads the cursor, writes the rows of the claim one by one, and commits;
if anything fails on the way, nothing has changed.
-/

namespace ReferenceMint.Store

/-- The contents of a database. -/
structure Database where
  /-- The version of its schema; zero before there is one. -/
  schemaVersion : Int
  /-- The table of buckets, if it exists. -/
  table : Option Table
deriving DecidableEq

namespace Database

/-- A database without contents. -/
def empty : Database := ⟨0, none⟩

/-- The version of the schema that this library writes. -/
def currentVersion : Int := 1

/-- The event for a schema that exists. -/
def upToDate : Journal.Entry :=
  .event ⟨.debug, "reference bucket schema is up to date", [("version", .number currentVersion)]⟩

/-- The event for a schema that does not exist yet. -/
def creating : Journal.Entry :=
  .event ⟨.info, "creating reference bucket schema", [("version", .number currentVersion)]⟩

/-- The detail of a failure under another program's lock. -/
def lockedDetail : String := "database is locked"

/-- The detail of a failure where nothing can be written. -/
def readOnlyDetail : String := "attempt to write a readonly database"

/-- Brings the schema up to date; `obstacle` is what keeps it from being written, if anything does.
A newer schema is left alone, and a database without one gets the table unless it has it. -/
def prepare (db : Database) (obstacle : Option String) :
    List Journal.Entry × Except Failure Database :=
  if currentVersion < db.schemaVersion then
    ([], .error (.storage ("database schema v" ++ Numeral.integerText db.schemaVersion ++
      " is newer than supported v" ++ Numeral.integerText currentVersion) none))
  else if db.schemaVersion = currentVersion then ([upToDate], .ok db)
  else match obstacle with
    | some detail =>
      -- A table that exists needs no write, so then the version is the first thing to fail.
      let context := match db.table with
        | none => "failed to create schema"
        | some _ => "failed to set schema version"
      ([creating], .error (.storageWith context detail))
    | none => ([creating], .ok ⟨currentVersion, some (db.table.getD [])⟩)

/-- The portfolio's code as it stands in the table. -/
def column (portfolio : PortfolioCode) : Int := portfolio.number.toNat

/-- The detail of a failure without the table. -/
def noTableDetail : String := "no such table: reference_buckets"

/-- The index that a column holds, if it is in range. -/
def toIndex (context : String) (n : Int) : Except Failure UInt32 :=
  if 0 ≤ n ∧ n ≤ Numeral.highest 2 32 then .ok (UInt32.ofNat n.toNat)
  else .error (.storageWith context ("integer " ++ Numeral.integerText n ++ " out of range"))

/-- The letter that a column holds. -/
def toLetter (portfolio : PortfolioCode) (s : String) : Except Failure Letter :=
  match s.toList with
  | [c] => Letter.ofChar c
  | _ => .error (.coding ("portfolio " ++ portfolio.text ++
      " has a bucket with invalid letter " ++ Text.quoted s))

/-- Reads the cursor: the row of the portfolio with the highest letter holds it. -/
def active (db : Database) (portfolio : PortfolioCode) : Except Failure (Option Cursor) := do
  match db.table with
  | none => throw (.storageWith "failed to read active bucket" noTableDetail)
  | some table =>
    match (table.ofPortfolio (column portfolio)).getLast? with
    | none => return none
    | some row =>
      let index ← toIndex "failed to read active bucket" row.index
      let letter ← toLetter portfolio row.letter
      let cursor ← Cursor.ofIndex letter index
      return some cursor

/-- Reads the buckets of a portfolio, by letter. -/
def buckets (db : Database) (portfolio : PortfolioCode) : Except Failure (List Bucket) := do
  match db.table with
  | none => throw (.storageWith "failed to read buckets" noTableDetail)
  | some table =>
    let read ← (table.ofPortfolio (column portfolio)).mapM fun row => do
      return (row.letter, ← toIndex "failed to read buckets" row.index)
    read.mapM fun (letter, index) => do
      return ⟨portfolio, ← toLetter portfolio letter, index⟩

/-- Why the rows of a claim are not written. -/
inductive WriteStop where
  /-- Another claim came first. -/
  | conflict
  /-- A statement failed. -/
  | failure (cause : Failure)
deriving DecidableEq

/-- Advances the bucket with the letter from an index that was read. -/
def advance (table : Table) (portfolio : PortfolioCode) (letter : Letter) (stored : Int)
    (index : UInt32) : Except WriteStop Table :=
  match table.update (column portfolio) letter.text (some stored) index.toNat true with
  | .ok (0, _) => .error .conflict
  | .ok (_, table) => .ok table
  | .error rejection =>
    .error (.failure (.storageWith "failed to advance bucket" rejection.message))

/-- Opens the bucket with the letter. -/
def openBucket (table : Table) (portfolio : PortfolioCode) (letter : Letter) (index : UInt32) :
    Except WriteStop Table :=
  match table.insert ⟨column portfolio, letter.text, index.toNat⟩ true with
  | .ok table => .ok table
  | .error .primaryKey => .error .conflict
  | .error rejection =>
    .error (.failure (.storageWith "failed to open bucket" rejection.message))

/-- Writes a row of a claim: it advances the bucket with the letter, or opens it. -/
def writeRow (table : Table) (portfolio : PortfolioCode) (letter : Letter) (index : UInt32) :
    Except WriteStop Table :=
  match table.index? (column portfolio) letter.text with
  | some stored =>
    match toIndex "failed to read bucket" stored with
    | .ok _ => advance table portfolio letter stored index
    | .error cause => .error (.failure cause)
  | none => openBucket table portfolio letter index

/-- Writes rows of a claim one after the other. -/
def writeRows (portfolio : PortfolioCode) :
    List (Letter × UInt32) → Table → Except WriteStop Table
  | [], table => .ok table
  | (letter, index) :: rest, table =>
    match writeRow table portfolio letter index with
    | .ok table => writeRows portfolio rest table
    | .error stop => .error stop

/-- A claim in a transaction of its own: what became of it and the database after it. -/
def claim (db : Database) (portfolio : PortfolioCode) (expected : Cursor)
    (capacity : UInt32) : Except Failure ClaimReply × Database :=
  match db.active portfolio with
  | .error failure => (.error failure, db)
  | .ok active =>
    match plan (active.getD .start) expected capacity with
    | .error outcome => (.ok outcome, db)
    | .ok claim =>
      match writeRows portfolio claim.writes (db.table.getD []) with
      | .error .conflict => (.ok (.conflict none), db)
      | .error (.failure cause) => (.error cause, db)
      | .ok table => (.ok (.claimed portfolio claim), { db with table := some table })

/-- Why a claim with the letter takes no effect where nothing can be written: its first row fails.
-/
def refusedWrite (table : Table) (portfolio : PortfolioCode) (letter : Letter) : Failure :=
  match table.index? (column portfolio) letter.text with
  | none => .storageWith "failed to open bucket" readOnlyDetail
  | some stored =>
    match toIndex "failed to read bucket" stored with
    | .ok _ => .storageWith "failed to advance bucket" readOnlyDetail
    | .error cause => cause

/-- A claim where nothing can be written: it fails if it would take effect. -/
def claimUnwritten (db : Database) (portfolio : PortfolioCode) (expected : Cursor)
    (capacity : UInt32) : Except Failure ClaimReply := do
  let active ← db.active portfolio
  match plan (active.getD .start) expected capacity with
  | .error outcome => return outcome
  | .ok claim => throw (refusedWrite (db.table.getD []) portfolio claim.letter)

/-- Answers a call on a database that can only be read. -/
def answerReadOnly : (c : Call) → Database → Reply c × Database
  | .active portfolio, db => (db.active portfolio, db)
  | .buckets portfolio, db => (db.buckets portfolio, db)
  | .claim portfolio expected capacity, db => (db.claimUnwritten portfolio expected capacity, db)

end Database

end ReferenceMint.Store
