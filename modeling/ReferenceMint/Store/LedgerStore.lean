import ReferenceMint.Storage.Object
import ReferenceMint.Store.Ledger

/-!
# The bucket store on object storage

Each portfolio has one ledger, an object of its own. A claim first asks for the version of the
ledger, then reads it, and writes it back on the demand that the version still stands. A write by
anybody else in between makes the demand fail, so no write is ever based on an outdated ledger. A
claim that opens a bucket changes two of them with the same write.
-/

namespace ReferenceMint.Store

open Storage (Precondition)

/-- A bucket store on object storage. -/
structure LedgerStore where
  /-- The folder of its ledgers; none for the root. -/
  folder : Option String
  /-- The time that it writes into a ledger. -/
  clock : Timestamp
deriving DecidableEq

namespace LedgerStore

/-- Whether a name can stand between slashes: it is not empty and does not point back. -/
def isSegment (cs : List Char) : Bool := cs ≠ [] && cs ≠ ['.'] && cs ≠ ['.', '.']

/-- The store with its ledgers in a folder. The folder is a path of names with slashes between
them. -/
def inFolder (folder : String) (clock : Timestamp) : Except Failure LedgerStore :=
  let cs := folder.toList
  if cs.isEmpty || cs.head? = some '/' || cs.getLast? = some '/' then
    .error (.input ("ledger prefix " ++ Text.quoted folder ++
      " must be non-empty without leading or trailing '/'"))
  else if (Text.splitAt '/' cs).all isSegment then .ok ⟨some folder, clock⟩
  else .error (.input ("ledger prefix " ++ Text.quoted folder ++
    " contains an empty or relative segment"))

/-- The path of a portfolio's ledger. -/
def path (s : LedgerStore) (portfolio : PortfolioCode) : String :=
  let name := "portfolio=" ++ portfolio.text ++ "/reference_buckets.json"
  match s.folder with
  | some folder => folder ++ "/" ++ name
  | none => name

/-- The ledger of a portfolio in an object under a path: its bytes have to be those of a ledger, and
of this portfolio. -/
def decode (path : String) (portfolio : PortfolioCode) (data : ByteArray) :
    Except Failure Ledger :=
  match Ledger.ofBytes? data with
  | none => .error (.coding ("failed to parse bucket ledger " ++ path ++ ": not a ledger"))
  | some ledger =>
    if ledger.portfolio = portfolio then .ok ledger
    else .error (.internal ("bucket ledger " ++ path ++ " belongs to portfolio " ++
      ledger.portfolio.text))

/-- Reads a ledger with the version it had before it was read; an absent ledger is empty. -/
def read (s : LedgerStore) (portfolio : PortfolioCode) :
    Program Storage.interface (Except Failure (Ledger × Option String)) :=
  let path := s.path portfolio
  -- The version is taken first: bytes newer than it can only make the write fail.
  .call (.head path) fun
    | .error failure => .done (.error failure)
    | .ok none => .done (.ok (.empty portfolio s.clock, none))
    | .ok (some info) => .call (.get path) fun
      | .error failure => .done (.error failure)
      | .ok data =>
        .done ((decode path portfolio data).map fun ledger => (ledger, some info.version))

/-- What a claim demands of the ledger it was based on. -/
def demand : Option String → Precondition
  | some version => .version version
  | none => .absent

/-- Writes a claim into a ledger that was read at a version. -/
def commit (s : LedgerStore) (portfolio : PortfolioCode) (ledger : Ledger) (version : Option String)
    (claim : Claim) : Program Storage.interface (Except Failure ClaimReply) :=
  .call (.put (s.path portfolio) (ledger.record claim s.clock).bytes (demand version)) fun
    | .error failure => .done (.error failure)
    | .ok (.written version) =>
      .log .trace "ledger committed" [("portfolio", .text portfolio.text),
          ("version", .text version), ("sequence", .number claim.sequence.toNat)]
        (.done (.ok (.claimed portfolio claim)))
    | .ok (.refused current) =>
      .log .debug "ledger changed during claim" [("portfolio", .text portfolio.text),
          ("current_version", .text current)]
        (.done (.ok (.conflict none)))

/-- Claims the next sequence, if the cursor is the expected one. -/
def claim (s : LedgerStore) (portfolio : PortfolioCode) (expected : Cursor)
    (capacity : UInt32) : Program Storage.interface (Except Failure ClaimReply) :=
  (s.read portfolio).bind fun
    | .error failure => .done (.error failure)
    | .ok (ledger, version) =>
      match ledger.active with
      | .error failure => .done (.error failure)
      | .ok active =>
        match plan (active.getD .start) expected capacity with
        | .error outcome => .done (.ok outcome)
        | .ok claim => s.commit portfolio ledger version claim

/-- Answers a call on the bucket store by calls on object storage. -/
def answer (s : LedgerStore) : (c : Call) → Program Storage.interface (Reply c)
  | .active portfolio =>
    (s.read portfolio).map fun read => read.bind fun (ledger, _) => ledger.active
  | .claim portfolio expected capacity => s.claim portfolio expected capacity
  | .buckets portfolio => (s.read portfolio).map fun read => read.map fun (ledger, _) => ledger.rows

/-- A program over the bucket store as one over object storage. -/
def program {α : Type} (s : LedgerStore) (p : Program Store.interface α) :
    Program Storage.interface α :=
  p.lower s.answer

end LedgerStore

end ReferenceMint.Store
