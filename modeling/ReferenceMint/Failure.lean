import ReferenceMint.Text.Numeral

/-!
# Failures

What can go wrong below an allocation: a portfolio code out of range, storage that fails, a stored
object that cannot be decoded, an object that is missing, invalid input, and a broken promise inside
the program. A lost race is no failure: storage reports it as an ordinary result.
-/

namespace ReferenceMint

/-- Why an operation failed. -/
inductive Failure where
  /-- The code is outside the range from `min` to `max`. -/
  | outOfRange (code : Int) (min max : UInt16)
  /-- Storage failed, with the words of the component below if it gave any. -/
  | storage (message : String) (source : Option String)
  /-- A value could not be encoded or decoded. -/
  | coding (message : String)
  /-- An object is missing. -/
  | missing (message : String)
  /-- The caller's input is invalid. -/
  | input (message : String)
  /-- A promise inside the program is broken. -/
  | internal (message : String)
deriving DecidableEq

/-- The kinds of failure. -/
inductive Failure.Kind where
  /-- The kind of a code out of range. -/
  | outOfRange
  /-- The kind of failing storage. -/
  | storage
  /-- The kind of a value that cannot be encoded or decoded. -/
  | coding
  /-- The kind of a missing object. -/
  | missing
  /-- The kind of invalid input. -/
  | input
  /-- The kind of a broken promise. -/
  | internal
deriving DecidableEq

namespace Failure

/-- The kind of a failure. -/
def kind : Failure → Kind
  | .outOfRange .. => .outOfRange
  | .storage .. => .storage
  | .coding _ => .coding
  | .missing _ => .missing
  | .input _ => .input
  | .internal _ => .internal

/-- The range from `min` to `max`, as messages show it. -/
def rangeText (min max : UInt16) : String :=
  Numeral.text min.toNat ++ "..=" ++ Numeral.text max.toNat

/-- The message for a code out of range. -/
def outOfRangeMessage (code : Int) (min max : UInt16) : String :=
  "invalid portfolio code " ++ Numeral.integerText code ++ ": expected a value in " ++
    rangeText min max

/-- The message of a failure. -/
def message : Failure → String
  | .outOfRange code min max => outOfRangeMessage code min max
  | .storage message _ => "storage error: " ++ message
  | .coding message => "serialization error: " ++ message
  | .missing message => "not found: " ++ message
  | .input message => "invalid input: " ++ message
  | .internal message => "internal error: " ++ message

/-- Storage failed while doing what `context` says, and the component below said why. -/
def storageWith (context detail : String) : Failure :=
  .storage (context ++ ": " ++ detail) (some detail)

/-- Whether the failure carries the words of a component below. -/
def hasSource : Failure → Bool
  | .storage _ source => source.isSome
  | _ => false

end Failure

/-- The label of a kind of failure. -/
def Failure.Kind.label : Failure.Kind → String
  | .outOfRange => "invalid_portfolio"
  | .storage => "storage"
  | .coding => "serialization"
  | .missing => "not_found"
  | .input => "invalid_input"
  | .internal => "internal"

end ReferenceMint
