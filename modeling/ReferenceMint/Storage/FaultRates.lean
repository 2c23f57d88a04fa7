/-!
# Fault rates

How often storage fails, and how long a call takes, in a simulation. A rate of zero or less never
makes a call fail, and one of a hundred hundredths or more always does; what lies between is left to
chance.
-/

namespace ReferenceMint.Storage

/-- How likely something is, in hundredths. -/
structure Rate where
  /-- The hundredths; what is below zero never happens, and what is above a hundred always. -/
  hundredths : Int
deriving DecidableEq

/-- Whether something of the rate happens, where that is certain. -/
def Rate.certain? (r : Rate) : Option Bool :=
  if r.hundredths ≤ 0 then some false
  else if 100 ≤ r.hundredths then some true
  else none

/-- The rates at which storage fails, and how long a call takes. -/
structure FaultRates where
  /-- The rate of failing reads. -/
  reads : Rate
  /-- The rate of failing writes. -/
  writes : Rate
  /-- The rate of conditional writes that lose their race. -/
  races : Rate
  /-- The shortest and the longest time that a call takes, in milliseconds; none for no time. -/
  latency : Option (Nat × Nat)
deriving DecidableEq

namespace FaultRates

/-- Nothing fails. -/
def none : FaultRates := ⟨⟨0⟩, ⟨0⟩, ⟨0⟩, Option.none⟩

/-- Many races are lost, and nothing fails. -/
def contendedStorage : FaultRates := ⟨⟨0⟩, ⟨0⟩, ⟨30⟩, some (0, 2)⟩

/-- Everything that can happen does. -/
def chaos : FaultRates := ⟨⟨2⟩, ⟨2⟩, ⟨20⟩, some (0, 5)⟩

end FaultRates

/-- A source of faults: where its random choices start, and the rates. -/
structure FaultSource where
  /-- Where the random choices start. -/
  seed : Nat
  rates : FaultRates
deriving DecidableEq

/-- How long a call takes, in milliseconds, where that is certain. -/
def FaultSource.latency? (s : FaultSource) : Option Nat :=
  match s.rates.latency with
  | none => some 0
  | some (shortest, longest) => if shortest = longest then some shortest else none

end ReferenceMint.Storage
