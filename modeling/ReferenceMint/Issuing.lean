import ReferenceMint.Allocation
import ReferenceMint.Exchange

/-!
# Issuing references

What callers use: issue references, read one, and report on the buckets of a portfolio. Everything
but reading goes through the bucket store. A report is advisory, as others may go on issuing while
it is made.
-/

namespace ReferenceMint

open Store (interface)

/-- The buckets of a portfolio and what can still be issued. -/
structure PortfolioReport where
  portfolio : PortfolioCode
  /-- The name it is registered under. -/
  name : Option String
  /-- The cursor; there is none before the first allocation. -/
  active : Option Cursor
  buckets : List Bucket
  /-- The number of sequences of a letter. -/
  capacity : UInt32
  /-- Whether nothing can be issued any more. -/
  exhausted : Bool
deriving DecidableEq

/-- A report is a record of its values. -/
def PortfolioReport.toJson (r : PortfolioReport) : Json :=
  .record [("portfolio", r.portfolio.toJson), ("name", .optional (r.name.map .text)),
    ("active", .optional (r.active.map Cursor.toJson)),
    ("buckets", .array (r.buckets.map Bucket.toJson)), ("capacity", .nat r.capacity.toNat),
    ("exhausted", .bool r.exhausted)]

namespace Settings

/-- Issues a reference for a portfolio. -/
def issue (s : Settings) (code : Int) : Allocating Reference :=
  (s.allocate code).map fun
    | .ok allocation => (s.layout.write allocation.triple).mapError .malformed
    | .error e => .error e

/-- Issues up to `count` more references after those issued, the latest of which comes first, and
stops at the first failure. -/
def issueFrom (s : Settings) (code : Int) :
    (count : Nat) → (issued : List Reference) →
      Program interface (List Reference × Option AllocationError)
  | 0, issued => .done (issued.reverse, none)
  | count + 1, issued => (s.issue code).bind fun
    | .ok reference => s.issueFrom code count (reference :: issued)
    | .error e => .done (issued.reverse, some e)

/-- Issues up to `count` references one after the other, and stops at the first failure, which comes
with those issued before. -/
def issueMany (s : Settings) (code : Int) (count : Nat) :
    Program interface (List Reference × Option AllocationError) :=
  s.issueFrom code count []

/-- Reads a reference. Whether its portfolio is in use is another question. -/
def read (s : Settings) (input : String) : Except AllocationError Triple :=
  (s.layout.read input).mapError .malformed

/-- The report on buckets of a portfolio. -/
def reportOn (s : Settings) (portfolio : PortfolioCode) (buckets : List Bucket) :
    Except AllocationError PortfolioReport :=
  match Bucket.activeCursor buckets with
  | .error failure => .error (.storage failure)
  | .ok active => .ok {
      portfolio
      name := (s.registry.get? portfolio).map Portfolio.name
      active
      buckets
      capacity := s.capacity
      exhausted := ((active.getD .start).claim s.capacity).isNone }

/-- Reports on the buckets of a portfolio. -/
def report (s : Settings) (code : Int) : Allocating PortfolioReport :=
  match s.check code with
  | .error e => .done (.error e)
  | .ok portfolio => .call (.buckets portfolio) fun
    | .error failure => .done (.error (.ofFailure failure))
    | .ok buckets => .done (s.reportOn portfolio buckets)

end Settings

end ReferenceMint
