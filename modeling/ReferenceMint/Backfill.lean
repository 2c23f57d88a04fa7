import ReferenceMint.Issuing

/-!
# Backfilling legacy records

A batch of legacy records is worked off in order. A record that has a reference keeps it, if the
reference belongs to the portfolio, was issued by the store and did not occur in the batch before; a
record without one is assigned the next reference. What is wrong with a reference, and a run of lost
races, fails one record; any other error stops the batch.
-/

namespace ReferenceMint

open Store (interface)

/-- What became of a record. -/
inductive RecordOutcome where
  /-- It was assigned a new reference. -/
  | assigned (reference : Reference)
  /-- It keeps its reference. -/
  | kept (reference : Reference)
  /-- It was left as it is. -/
  | failed (reason : String)
deriving DecidableEq

/-- A record that was worked off. -/
structure BatchEntry where
  /-- The identifier of the record. -/
  id : String
  /-- What became of it. -/
  outcome : RecordOutcome
deriving DecidableEq

/-- Why a batch stopped. -/
structure BatchHalt where
  /-- The identifier of the record it stopped at. -/
  id : String
  error : AllocationError
deriving DecidableEq

/-- What became of a batch. -/
structure BatchReport where
  portfolio : PortfolioCode
  /-- The records that were worked off, in order. -/
  entries : List BatchEntry
  /-- The number of the other records, with the one at which the batch stopped. -/
  unprocessed : Nat
  /-- Why the batch stopped, if it did. -/
  halted : Option BatchHalt
deriving DecidableEq

/-- The words for the outcome and what belongs to it. -/
def RecordOutcome.members : RecordOutcome → List (String × Json)
  | .assigned reference => [("outcome", .text "assigned"), ("reference", .text reference.text)]
  | .kept reference => [("outcome", .text "kept"), ("reference", .text reference.text)]
  | .failed reason => [("outcome", .text "failed"), ("reason", .text reason)]

/-- An entry is a record of the identifier and the outcome. -/
def BatchEntry.toJson (e : BatchEntry) : Json :=
  .record (("id", .text e.id) :: e.outcome.members)

/-- A halt is a record of the identifier, the kind of the error and its message. -/
def BatchHalt.toJson (h : BatchHalt) : Json :=
  .record [("id", .text h.id), ("kind", h.error.kind.toJson), ("message", .text h.error.message)]

namespace BatchReport

/-- The number of records with an outcome. -/
def count (r : BatchReport) (p : RecordOutcome → Bool) : Nat :=
  r.entries.countP fun e => p e.outcome

/-- The number of records that were assigned a reference. -/
def assigned (r : BatchReport) : Nat := r.count fun
  | .assigned _ => true
  | _ => false

/-- The number of records that keep their reference. -/
def kept (r : BatchReport) : Nat := r.count fun
  | .kept _ => true
  | _ => false

/-- The number of records that failed. -/
def failed (r : BatchReport) : Nat := r.count fun
  | .failed _ => true
  | _ => false

/-- Whether every record was worked off. -/
def isComplete (r : BatchReport) : Bool := r.halted.isNone

/-- A report is a record of its values. -/
def toJson (r : BatchReport) : Json :=
  .record [("portfolio", r.portfolio.toJson),
    ("entries", .array (r.entries.map BatchEntry.toJson)), ("unprocessed", .nat r.unprocessed),
    ("halted", .optional (r.halted.map BatchHalt.toJson))]

end BatchReport

/-- Whether a batch stops at the error. -/
def AllocationError.endsBatch : AllocationError → Bool
  | .outOfSpace _ | .outOfRange .. | .storage _ | .configuration _ => true
  | .outOfTries .. | .malformed _ => false

namespace Settings

/-- What becomes of a record with a reference that was read as `triple`, given the buckets of the
portfolio and the references that occurred before. -/
def verdict (portfolio : PortfolioCode) (reference : Reference) (triple : Triple)
    (buckets : List Bucket) (seen : List Reference) :
    RecordOutcome × List Reference :=
  if !Bucket.issued buckets triple.letter triple.sequence then
    (.failed ("reference " ++ reference.text ++ " has not been issued for portfolio " ++
      portfolio.text), seen)
  else if seen.contains reference then
    (.failed ("reference " ++ reference.text ++ " appears more than once"), seen)
  else (.kept reference, reference :: seen)

/-- Works off a record with a reference. -/
def checkReference (s : Settings) (portfolio : PortfolioCode) (existing : String)
    (seen : List Reference) : Allocating (RecordOutcome × List Reference) :=
  match s.layout.read existing with
  | .error e => .done (.ok (.failed e.message, seen))
  | .ok triple =>
    if triple.portfolio ≠ portfolio then
      .done (.ok (.failed ("reference " ++ existing ++ " does not belong to portfolio " ++
        portfolio.text), seen))
    else match s.layout.write triple with
      | .error e => .done (.error (.malformed e))
      | .ok reference => .call (.buckets portfolio) fun
        | .error failure => .done (.error (.ofFailure failure))
        | .ok buckets => .done (.ok (verdict portfolio reference triple buckets seen))

/-- Works off a record without a reference. -/
def assign (s : Settings) (portfolio : PortfolioCode) (seen : List Reference) :
    Allocating (RecordOutcome × List Reference) :=
  (s.issue portfolio.number.toNat).map fun result =>
    result.map fun reference => (.assigned reference, reference :: seen)

/-- Works off a record: white space around a reference does not count, and a blank one is none. -/
def workOff (s : Settings) (portfolio : PortfolioCode) (record : LegacyRecord)
    (seen : List Reference) : Allocating (RecordOutcome × List Reference) :=
  match record.reference.map fun existing => Text.trim existing.toList with
  | none | some [] => s.assign portfolio seen
  | some existing => s.checkReference portfolio (String.ofList existing) seen

/-- The fields of an event about a record that was not backfilled. -/
def recordFields (record : LegacyRecord) (e : AllocationError) : Journal.Fields :=
  [("id", .text record.id), ("error", .text e.message)]

/-- Works off records in order after those worked off, the latest of which comes first, given the
references that occurred before. -/
def workOffFrom (s : Settings) (portfolio : PortfolioCode) :
    (records : List LegacyRecord) → (entries : List BatchEntry) → (seen : List Reference) →
      Program interface (List BatchEntry × Option BatchHalt)
  | [], entries, _ => .done (entries.reverse, none)
  | record :: rest, entries, seen => (s.workOff portfolio record seen).bind fun
    | .ok (outcome, seen) => s.workOffFrom portfolio rest (⟨record.id, outcome⟩ :: entries) seen
    | .error e =>
      if e.endsBatch then
        .log .error "backfill halted" (recordFields record e)
          (.done (entries.reverse, some ⟨record.id, e⟩))
      else
        .log .warn "record not backfilled" (recordFields record e)
          (s.workOffFrom portfolio rest (⟨record.id, .failed e.message⟩ :: entries) seen)

/-- The span of a batch. -/
def backfillSpan (code : Int) (records : Nat) : Journal.Span :=
  ⟨"backfill", [("portfolio", .number code), ("records", .number records)]⟩

/-- The fields of the event that ends a batch. -/
def finishedFields (code : Int) (r : BatchReport) : Journal.Fields :=
  [("portfolio", .number code), ("assigned", .number r.assigned), ("kept", .number r.kept),
    ("failed", .number r.failed), ("unprocessed", .number r.unprocessed)]

/-- Works off a batch of records of one portfolio. The code is checked before any record. -/
def backfill (s : Settings) (code : Int) (records : List LegacyRecord) :
    Allocating BatchReport :=
  match s.check code with
  | .error e => .done (.error e)
  | .ok portfolio =>
    (Program.within (backfillSpan code records.length)
      (s.workOffFrom portfolio records [] [])).bind fun (entries, halted) =>
        let report : BatchReport :=
          { portfolio, entries, unprocessed := records.length - entries.length, halted }
        .log .info "backfill finished" (finishedFields code report) (.done (.ok report))

end Settings

end ReferenceMint
