import ReferenceMint.AllocationError
import ReferenceMint.Journal

/-!
# What is measured

The references issued and the allocations that failed are counted, and so are the races lost on the
way and the letters brought into use. For each allocation the number of tries is a sample.
-/

namespace ReferenceMint

open Journal (Metric)

/-- What is measured. -/
inductive Measure where
  /-- The references issued. -/
  | issued
  /-- The allocations that failed. -/
  | failed
  /-- The tries that an allocation took. -/
  | triesTaken
  /-- The races lost for a cursor. -/
  | lostRaces
  /-- The letters that filled up and were followed by the next. -/
  | lettersOpened
deriving DecidableEq

/-- How something is measured. -/
inductive Instrument where
  /-- It is counted. -/
  | counter
  /-- It is sampled. -/
  | histogram
deriving DecidableEq

namespace Measure

/-- Everything that is measured. -/
def all : List Measure := [.issued, .failed, .triesTaken, .lostRaces, .lettersOpened]

/-- The name of a measure. -/
def name : Measure → String
  | .issued => "clientref_allocations_total"
  | .failed => "clientref_allocation_failures_total"
  | .triesTaken => "clientref_allocation_attempts"
  | .lostRaces => "clientref_cas_conflicts_total"
  | .lettersOpened => "clientref_bucket_rollovers_total"

/-- How a measure is taken. -/
def instrument : Measure → Instrument
  | .triesTaken => .histogram
  | _ => .counter

/-- The description of a measure. -/
def description : Measure → String
  | .issued => "Total client references issued"
  | .failed => "Total failed allocations by error kind"
  | .triesTaken => "Claim attempts needed per allocation"
  | .lostRaces => "Total lost bucket compare-and-swap races"
  | .lettersOpened => "Total bucket rollovers to the next letter"

/-- A measure with the portfolio as its first label. -/
def ofPortfolio (m : Measure) (portfolio : PortfolioCode) (labels : List (String × String)) :
    Metric :=
  ⟨m.name, ("portfolio", portfolio.text) :: labels⟩

/-- The failures of a kind. -/
def failuresOf (kind : AllocationError.Kind) : Metric := ⟨failed.name, [("kind", kind.label)]⟩

/-- The labels for a letter that filled up and the next one. -/
def letterLabels (filled opened : Letter) : List (String × String) :=
  [("from", filled.text), ("to", opened.text)]

end Measure

end ReferenceMint
