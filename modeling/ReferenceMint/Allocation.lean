import ReferenceMint.Measures
import ReferenceMint.Store.Claiming

/-!
# Allocation

An allocation reads the cursor of a portfolio and claims the sequence at it. If another claim came
first it tries again, at the cursor that the store saw or at one that it reads anew, as often as the
settings allow. The portfolio code is checked before anything is read.
-/

namespace ReferenceMint

open Store (interface)

/-- An allocation that took effect. -/
structure Allocation where
  /-- The issued triple. -/
  triple : Triple
  /-- The cursor afterwards. -/
  after : Cursor
  /-- The number of tries, with the one that succeeded. -/
  tries : Nat
  /-- The letter that came into use. -/
  opened : Option Letter
deriving DecidableEq

/-- The result of a program that allocates. -/
abbrev Allocating (α : Type) := Program interface (Except AllocationError α)

namespace Allocation

/-- The allocation that a claim makes. -/
def ofClaim (portfolio : PortfolioCode) (claim : Claim) (tries : Nat) : Allocation :=
  ⟨Store.tripleOf portfolio claim, claim.after, tries, claim.opened⟩

/-- What is written into the journal about a letter that came into use. -/
def openedEntries (a : Allocation) : List Journal.Entry :=
  match a.opened with
  | some opened => [
    .count (Measure.lettersOpened.ofPortfolio a.triple.portfolio
      (Measure.letterLabels a.triple.letter opened)),
    .event ⟨.info, "bucket rolled over",
      [("from", .text a.triple.letter.text), ("to", .text opened.text)]⟩]
  | none => []

/-- What is written into the journal about an allocation. -/
def entries (a : Allocation) : List Journal.Entry :=
  [.count (Measure.issued.ofPortfolio a.triple.portfolio []),
    .sample (Measure.triesTaken.ofPortfolio a.triple.portfolio []) a.tries] ++
  a.openedEntries ++
  [.event ⟨.debug, "sequence allocated",
    [("alpha", .text a.triple.letter.text), ("sequence", .number a.triple.sequence.toNat),
      ("attempts", .number a.tries)]⟩]

/-- The cursor that a store saw, as the journal shows it. -/
def seenText : Option Cursor → String
  | some cursor => "Some(" ++ Text.quoted cursor.text ++ ")"
  | none => "None"

/-- What is written into the journal about a lost race. -/
def lostEntries (portfolio : PortfolioCode) (number : Nat) (expected : Cursor)
    (seen : Option Cursor) : List Journal.Entry := [
  .count (Measure.lostRaces.ofPortfolio portfolio []),
  .event ⟨.debug, "lost bucket race", [("attempt", .number number),
    ("expected", .text expected.text), ("seen", .text (seenText seen))]⟩]

end Allocation

namespace Settings

/-- The end of an allocation for which nothing is left. -/
def exhausted (s : Settings) (portfolio : PortfolioCode) (observed : Cursor) :
    Allocating Allocation :=
  .log .error "portfolio reference space exhausted"
    [("bucket", .text observed.text), ("capacity", .number s.capacity.toNat)]
    (.done (.error (.outOfSpace portfolio)))

/-- The end of an allocation that may not try again. -/
def triesSpent (s : Settings) (portfolio : PortfolioCode) : Allocating Allocation :=
  .log .warn "allocation retry budget spent" [("attempts", .number s.tries.toNat)]
    (.done (.error (.outOfTries portfolio s.tries)))

/-- Claims at the cursor `observed`, as the try with the given number; `lost` is what follows if
another claim came first, where the store may have seen a cursor. -/
def tryOnce (s : Settings) (portfolio : PortfolioCode) (number : Nat) (observed : Cursor)
    (lost : Option Cursor → Allocating Allocation) : Allocating Allocation :=
  if (observed.claim s.capacity).isNone then s.exhausted portfolio observed
  else .call (.claim portfolio observed s.capacity) fun
    | .error failure => .done (.error (.ofFailure failure))
    | .ok (.claimed portfolio claim) =>
      let allocation := Allocation.ofClaim portfolio claim number
      .notes allocation.entries (.done (.ok allocation))
    | .ok (.exhausted observed) => s.exhausted portfolio observed
    | .ok (.conflict seen) =>
      .notes (Allocation.lostEntries portfolio number observed seen) (lost seen)

/-- Tries to claim at the cursor `observed`; `number` counts the tries with this one, and `retries`
are the ones after it. -/
def tryClaim (s : Settings) (portfolio : PortfolioCode) :
    (retries number : Nat) → (observed : Cursor) → Allocating Allocation
  | 0, number, observed => s.tryOnce portfolio number observed fun _ => s.triesSpent portfolio
  | retries + 1, number, observed => s.tryOnce portfolio number observed fun
    | some cursor => s.tryClaim portfolio retries (number + 1) cursor
    -- The store saw no cursor, so it is read anew.
    | none => .call (.active portfolio) fun
      | .error failure => .done (.error (.ofFailure failure))
      | .ok active => s.tryClaim portfolio retries (number + 1) (active.getD .start)

/-- Checks a portfolio code. -/
def check (s : Settings) (code : Int) : Except AllocationError PortfolioCode :=
  (s.registry.check code).mapError .ofFailure

/-- Allocates the next sequence of a portfolio, without a record of failure. -/
def allocateOnce (s : Settings) (code : Int) : Allocating Allocation :=
  match s.check code with
  | .error e => .done (.error e)
  | .ok portfolio => .call (.active portfolio) fun
    | .error failure => .done (.error (.ofFailure failure))
    | .ok active => s.tryClaim portfolio (s.tries.toNat - 1) 1 (active.getD .start)

/-- The span of an allocation. -/
def allocationSpan (code : Int) : Journal.Span :=
  ⟨"allocation", [("op", .text "allocate"), ("portfolio", .number code)]⟩

/-- Allocates the next sequence of a portfolio. -/
def allocate (s : Settings) (code : Int) : Allocating Allocation :=
  (Program.within (allocationSpan code) (s.allocateOnce code)).bind fun
    | .ok allocation => .done (.ok allocation)
    | .error e => .note (.count (Measure.failuresOf e.kind)) (.done (.error e))

end Settings

end ReferenceMint
