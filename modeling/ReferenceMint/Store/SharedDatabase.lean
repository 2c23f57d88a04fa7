import ReferenceMint.Store.Database

/-!
# The bucket store on a database

Several programs may use one database, but only one of them can write at a time. While another
program holds the lock, a claim is a conflict in which nothing was seen, and reads go on and see
what was committed last.

A store remembers the schema as it saw it last, so it may take some time to notice that another
program has dropped the table. This makes no difference but to the words of a failure: a store that
does not know of the table fails when it prepares its query for buckets, and one that does fails
when it runs the query.
-/

namespace ReferenceMint.Store

/-- What a store remembers of the table. -/
inductive TableMemory where
  /-- There was no table. -/
  | missing
  /-- There was a table. -/
  | present
  /-- The query for buckets is prepared, and stays so from then on. -/
  | queried
deriving DecidableEq

/-- A database that other programs may use too. -/
structure SharedDatabase where
  /-- What was committed last. -/
  committed : Database
  /-- What another program has under its lock, if it holds the lock. -/
  pending : Option Database
  /-- What the store remembers of the table. -/
  memory : TableMemory
deriving DecidableEq

namespace SharedDatabase

/-- What is seen of the table of a database. -/
def seen (db : Database) : TableMemory := if db.table.isSome then .present else .missing

/-- A database that no other program uses. -/
def ofDatabase (db : Database) : SharedDatabase := ⟨db, none, seen db⟩

/-- Whether another program holds the lock. -/
def isLocked (s : SharedDatabase) : Bool := s.pending.isSome

/-- The store has looked at the table. -/
def looked (s : SharedDatabase) : SharedDatabase :=
  match s.memory with
  | .queried => s
  | _ => { s with memory := seen s.committed }

/-- The buckets of a portfolio, by letter: the query is prepared before it is run. -/
def buckets (s : SharedDatabase) (portfolio : PortfolioCode) :
    Except Failure (List Bucket) × SharedDatabase :=
  if s.memory = .missing && s.committed.table.isNone then
    (.error (.storageWith "failed to prepare bucket query" Database.noTableDetail), s)
  else (s.committed.buckets portfolio, { s with memory := .queried })

/-- Answers a call on the bucket store. -/
def answer : (c : Call) → SharedDatabase → Reply c × SharedDatabase
  | .active portfolio, s => (s.committed.active portfolio, s.looked)
  | .buckets portfolio, s => s.buckets portfolio
  | .claim portfolio expected capacity, s =>
    if s.isLocked then (.ok (.conflict none), s)
    else
      let (reply, committed) := s.committed.claim portfolio expected capacity
      (reply, { s.looked with committed })

/-- What the other program sees: its own writes if it holds the lock. -/
def seenByOther (s : SharedDatabase) : Database := s.pending.getD s.committed

/-- The database after the other program has changed what it sees. -/
def writtenByOther (s : SharedDatabase) (db : Database) : SharedDatabase :=
  match s.pending with
  | some _ => { s with pending := some db }
  | none => { s with committed := db }

/-- The other program takes the lock. -/
def lock (s : SharedDatabase) : SharedDatabase := { s with pending := some s.seenByOther }

/-- The other program commits and releases the lock. -/
def unlock (s : SharedDatabase) : SharedDatabase :=
  { s with committed := s.seenByOther, pending := none }

/-- The event for a claim that would have taken effect, but nobody waits for it any more. -/
def rollingBack (portfolio : PortfolioCode) : Journal.Entry :=
  .event ⟨.debug, "caller went away, rolling back claim", [("portfolio", .text portfolio.text)]⟩

/-- A caller claims at the cursor while the other program holds the lock, and goes away before the
lock is released. The claim is undone: it leaves an event if it would have taken effect, and nothing
otherwise. -/
def abandon (s : SharedDatabase) (portfolio : PortfolioCode) (capacity : UInt32) :
    List Journal.Entry × SharedDatabase :=
  let s := s.unlock
  let claimed := match s.committed.active portfolio with
    | .error _ => false
    | .ok active =>
      match (s.committed.claim portfolio (active.getD .start) capacity).1 with
      | .ok reply => reply.isClaimed
      | .error _ => false
  (if claimed then [rollingBack portfolio] else [], s.looked)

/-- Opens the database: its schema is brought up to date. A store that has just been opened knows of
the table if there is one. -/
def opened (s : SharedDatabase) : List Journal.Entry × Except Failure SharedDatabase :=
  let obstacle := if s.isLocked then some Database.lockedDetail else none
  let (entries, prepared) := s.committed.prepare obstacle
  (entries, prepared.map fun db => { s with committed := db, memory := seen db })

/-- The event for a database that is opened as a file. -/
def openingFile : Journal.Entry := .event ⟨.info, "opening reference bucket database", []⟩

/-- The event for a database that is opened in memory. -/
def openingMemory : Journal.Entry :=
  .event ⟨.debug, "opening in-memory reference bucket database", []⟩

end SharedDatabase

end ReferenceMint.Store
