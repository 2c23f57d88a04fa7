import ReferenceMint.Configuration

/-!
# The environment

Variables of the environment override single values of the standard configuration. A variable that
is not set, or holds nothing but white space, overrides nothing. The variables are read in a fixed
order, so the first malformed one is reported, and before anything that is wrong with the values
together.

A system lets a variable hold any bytes, and not all bytes are a text. A variable that holds no text
is taken for one that is not set: it overrides nothing, and it is not reported either.
-/

namespace ReferenceMint

/-- What the variables of an environment may hold. -/
class VariableValue (Value : Type) where
  /-- The text that a value is, if it is one. -/
  text? : Value → Option String

/-- Every text is one. -/
instance : VariableValue String := ⟨some⟩

/-- Bytes are the text that they encode, if they encode one. -/
instance : VariableValue ByteArray := ⟨String.fromUTF8?⟩

/-- The variables of an environment with their values, which are texts unless it is said what else
they may be. -/
abbrev Environment (Value : Type := String) := List (String × Value)

namespace Environment

variable {Value : Type} [VariableValue Value]

/-- The text that a variable holds; none if it is not set, or holds what is no text. -/
def text? (env : Environment Value) (name : String) : Option String :=
  (env.lookup name).bind VariableValue.text?

/-- The number up to `limit` that a variable holds. -/
def number? (env : Environment Value) (name : String) (limit : Nat) :
    Except ConfigurationError (Option Nat) :=
  match (env.text? name).map fun value => Text.trim value.toList with
  | none | some [] => .ok none
  | some value =>
    match Numeral.readNat limit value with
    | .ok n => .ok (some n)
    | .error cause => .error (.malformed name (String.ofList value) cause)

/-- The configuration of an environment, unchecked. -/
def overlay (env : Environment Value) : Except ConfigurationError Configuration := do
  let standard := Configuration.standard
  let lowest ← env.number? "CLIENTREF_PORTFOLIO_MIN" (Numeral.highest 2 16)
  let highest ← env.number? "CLIENTREF_PORTFOLIO_MAX" (Numeral.highest 2 16)
  let digits ← env.number? "CLIENTREF_SEQUENCE_WIDTH" (Numeral.highest 2 8)
  let bucketSize ← env.number? "CLIENTREF_BUCKET_CAPACITY" (Numeral.highest 2 32)
  let tries ← env.number? "CLIENTREF_MAX_ATTEMPTS" (Numeral.highest 2 32)
  let firstDelay ← env.number? "CLIENTREF_BACKOFF_BASE_MS" (Numeral.highest 2 64)
  let longestDelay ← env.number? "CLIENTREF_BACKOFF_MAX_MS" (Numeral.highest 2 64)
  return {
    lowest := (lowest.map UInt16.ofNat).getD standard.lowest
    highest := (highest.map UInt16.ofNat).getD standard.highest
    digits := (digits.map UInt8.ofNat).getD standard.digits
    bucketSize := bucketSize.map UInt32.ofNat
    tries := (tries.map UInt32.ofNat).getD standard.tries
    firstDelay := (firstDelay.map UInt64.ofNat).getD standard.firstDelay
    longestDelay := (longestDelay.map UInt64.ofNat).getD standard.longestDelay }

/-- The configuration of an environment, if it is well-formed and valid. -/
def configuration (env : Environment Value) : Except ConfigurationError Configuration := do
  let c ← env.overlay
  c.check
  return c

end Environment

/-- How log events are written. -/
inductive LogStyle where
  /-- One JSON object a line. -/
  | json
  /-- Lines for a reader. -/
  | pretty
deriving DecidableEq

/-- How log events are written in an environment: as JSON if the variable says so, in whatever
case. -/
def Environment.logStyle {Value : Type} [VariableValue Value] (env : Environment Value) :
    LogStyle :=
  match env.text? "CLIENTREF_LOG_FORMAT" with
  | some value => if value.toList.map Char.toLower = "json".toList then .json else .pretty
  | none => .pretty

end ReferenceMint
