import ReferenceMint.Issuing

/-!
# Races

In a race many processes issue references of one portfolio, each with a program of its own and with
a configuration that keeps trying. The order in which their calls are answered here is one process
after the other.
-/

namespace ReferenceMint

open Store (interface)

/-- The configuration for many processes on small letters: it tries often and waits little. -/
def Configuration.contended (capacity : UInt32) : Configuration :=
  { standard with
    bucketSize := some capacity, tries := 200, firstDelay := 1, longestDelay := 20 }

/-- The configuration of a process in a race. -/
def Configuration.racing (c : Configuration) : Configuration := { c with tries := 1000 }

/-- What a process issued, and the errors that it met, each in order. -/
structure ProcessResult where
  issued : List Reference
  errors : List AllocationError
deriving DecidableEq

/-- A process issues references, `count` more after those in `outcome`, the latest of which comes
first. -/
def Settings.processFrom (s : Settings) (code : Int) :
    (count : Nat) → (outcome : ProcessResult) → Program interface ProcessResult
  | 0, outcome => .done ⟨outcome.issued.reverse, outcome.errors.reverse⟩
  | count + 1, outcome => (s.issue code).bind fun
    | .ok reference =>
      s.processFrom code count { outcome with issued := reference :: outcome.issued }
    | .error e => s.processFrom code count { outcome with errors := e :: outcome.errors }

/-- A process issues references, as many as it can of `count`. -/
def Settings.process (s : Settings) (code : Int) (count : Nat) : Program interface ProcessResult :=
  s.processFrom code count ⟨[], []⟩

/-- A race of processes, one after the other. -/
def Settings.race (s : Settings) (code : Int) (count : Nat) :
    (processes : Nat) → Program interface (List ProcessResult)
  | 0 => .done []
  | processes + 1 => (s.process code count).bind fun outcome =>
      (s.race code count processes).map fun outcomes => outcome :: outcomes

end ReferenceMint
