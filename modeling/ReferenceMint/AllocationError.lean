import ReferenceMint.Configuration

/-!
# Allocation errors

What a caller who wants a reference can be told. The set is small and closed. A lost race is not in
it; only a whole run of them is.
-/

namespace ReferenceMint

/-- Why no reference was allocated, or none was read. -/
inductive AllocationError where
  /-- The portfolio code is outside the range from `min` to `max`. -/
  | outOfRange (code : Int) (min max : UInt16)
  /-- Every allowed try lost its race. -/
  | outOfTries (portfolio : PortfolioCode) (tries : UInt32)
  /-- Every bucket of the portfolio is full. -/
  | outOfSpace (portfolio : PortfolioCode)
  /-- A reference could not be read or written. -/
  | malformed (cause : LayoutError)
  /-- The configuration is invalid. -/
  | configuration (cause : ConfigurationError)
  /-- The bucket store failed. -/
  | storage (cause : Failure)
deriving DecidableEq

/-- The kinds of allocation error. -/
inductive AllocationError.Kind where
  /-- The kind of a code out of range. -/
  | outOfRange
  /-- The kind of a run of lost races. -/
  | outOfTries
  /-- The kind of a full portfolio. -/
  | outOfSpace
  /-- The kind of a malformed reference. -/
  | malformed
  /-- The kind of an invalid configuration. -/
  | configuration
  /-- The kind of a failing store. -/
  | storage
deriving DecidableEq

namespace AllocationError

/-- Every kind. -/
def Kind.all : List Kind :=
  [.outOfRange, .outOfTries, .outOfSpace, .malformed, .configuration, .storage]

/-- The label of a kind. -/
def Kind.label : Kind → String
  | .outOfRange => "invalid_portfolio"
  | .outOfTries => "concurrency_exhausted"
  | .outOfSpace => "space_exhausted"
  | .malformed => "format"
  | .configuration => "config"
  | .storage => "storage"

/-- The kind with the given label. -/
def Kind.ofLabel? (label : String) : Option Kind := Kind.all.find? fun kind => kind.label = label

/-- The kind of an error. -/
def kind : AllocationError → Kind
  | .outOfRange .. => .outOfRange
  | .outOfTries .. => .outOfTries
  | .outOfSpace _ => .outOfSpace
  | .malformed _ => .malformed
  | .configuration _ => .configuration
  | .storage _ => .storage

/-- The message of an error. -/
def message : AllocationError → String
  | .outOfRange code min max => Failure.outOfRangeMessage code min max
  | .outOfTries portfolio tries =>
    "allocation for portfolio " ++ portfolio.text ++ " lost " ++ Numeral.text tries.toNat ++
      " consecutive races; retry later"
  | .outOfSpace portfolio =>
    "portfolio " ++ portfolio.text ++
      " has exhausted its reference space (bucket Z is full); operator action required"
  | .malformed cause => "malformed client reference: " ++ cause.message
  | .configuration cause => "configuration error: " ++ cause.message
  | .storage cause => "bucket store error: " ++ cause.message

/-- Whether the same call may succeed later. -/
def isTemporary : AllocationError → Bool
  | .outOfTries .. | .storage _ => true
  | _ => false

/-- The error that a failure below is to the caller. -/
def ofFailure : Failure → AllocationError
  | .outOfRange code min max => .outOfRange code min max
  | failure => .storage failure

end AllocationError

end ReferenceMint
