import ReferenceMint.Exchange
import ReferenceMint.Store.Claiming
import ReferenceMint.Text.Timestamp

/-!
# Ledgers

A ledger is the record of all buckets of one portfolio, with the time of its last change. Writing a
claim into a ledger never lowers an index, and leaves the buckets ordered by letter. A ledger is
stored as the text of one JSON record, in UTF-8.
-/

namespace ReferenceMint

/-- A timestamp is the text it was written in. -/
def Timestamp.toJson (t : Timestamp) : Json := .text t.text

/-- Reads a timestamp. -/
def Timestamp.ofJson? (json : Json) : Option Timestamp := json.toText?.bind Timestamp.ofText?

end ReferenceMint

namespace ReferenceMint.Store

/-- The buckets of a portfolio. -/
structure Ledger where
  portfolio : PortfolioCode
  rows : List Bucket
  /-- The time of the last change. -/
  changedAt : Timestamp
deriving DecidableEq

namespace Ledger

/-- The ledger of a portfolio that has issued nothing. -/
def empty (portfolio : PortfolioCode) (now : Timestamp) : Ledger := ⟨portfolio, [], now⟩

/-- The cursor, if there is a bucket. -/
def active (l : Ledger) : Except Failure (Option Cursor) := Bucket.activeCursor l.rows

/-- Raises the index of the first bucket with the letter, or adds a bucket at the end. -/
def raise (portfolio : PortfolioCode) (rows : List Bucket) (letter : Letter) (index : UInt32) :
    List Bucket :=
  match rows with
  | [] => [⟨portfolio, letter, index⟩]
  | row :: rest =>
    if row.letter = letter then { row with index := max row.index index } :: rest
    else row :: raise portfolio rest letter index

/-- Puts a bucket in front of the first whose letter is not lower. -/
def place (row : Bucket) : List Bucket → List Bucket
  | [] => [row]
  | other :: rest =>
    if row.letter ≤ other.letter then row :: other :: rest else other :: place row rest

/-- The buckets by letter; those of one letter keep their order. -/
def ordered (rows : List Bucket) : List Bucket := rows.foldr place []

/-- The ledger with a claim written into it. -/
def record (l : Ledger) (claim : Claim) (now : Timestamp) : Ledger :=
  { l with
    rows := ordered (claim.writes.foldl (fun rows (letter, index) =>
      raise l.portfolio rows letter index) l.rows)
    changedAt := now }

/-- A ledger is a record of code, buckets and time. -/
def toJson (l : Ledger) : Json :=
  .record [("portfolioCode", l.portfolio.toJson), ("rows", .array (l.rows.map Bucket.toJson)),
    ("updatedAt", l.changedAt.toJson)]

/-- Reads a ledger. -/
def ofJson? (json : Json) : Option Ledger :=
  match Json.slots ["portfolioCode", "rows", "updatedAt"] json with
  | some [portfolio, rows, changedAt] => do
    some ⟨← Json.required PortfolioCode.ofJson? portfolio,
      ← Json.required (Json.toList? Bucket.ofJson?) rows,
      ← Json.required Timestamp.ofJson? changedAt⟩
  | _ => none

/-- The text of a ledger. -/
def text (l : Ledger) : String := l.toJson.compact

/-- The ledger that a text is. -/
def ofText? (text : String) : Option Ledger := (Json.ofText? text).bind ofJson?

/-- The stored bytes of a ledger. -/
def bytes (l : Ledger) : ByteArray := l.text.toUTF8

/-- The ledger that stored bytes are. -/
def ofBytes? (data : ByteArray) : Option Ledger := (String.fromUTF8? data).bind ofText?

end Ledger

end ReferenceMint.Store
