import ReferenceMint.AllocationError
import ReferenceMint.Json.Decoding
import ReferenceMint.Json.Reader
import ReferenceMint.Json.Writer
import ReferenceMint.Legacy

/-!
# The JSON forms of values

Values that are stored or exchanged have a JSON form. Records are objects with their fields in a
fixed order, and are read back from an object or from an array of the fields. Reading fixes the type
of each field and no more: an index may be zero, and a portfolio code outside every range.
-/

namespace ReferenceMint

open Json (required defaulted nullable slots)

/-- A letter is a string of one character. -/
def Letter.toJson (a : Letter) : Json := .text a.text

/-- Reads a letter. -/
def Letter.ofJson? (json : Json) : Option Letter := json.toChar?.bind Letter.ofChar?

/-- A portfolio code is a number. -/
def PortfolioCode.toJson (code : PortfolioCode) : Json := .nat code.number.toNat

/-- Reads a portfolio code. -/
def PortfolioCode.ofJson? (json : Json) : Option PortfolioCode :=
  json.toUInt16?.map PortfolioCode.mk

/-- A cursor is a record of letter and index. -/
def Cursor.toJson (s : Cursor) : Json :=
  .record [("alpha", s.letter.toJson), ("nextIndex", .nat s.index.toNat)]

/-- Reads a cursor. -/
def Cursor.ofJson? (json : Json) : Option Cursor :=
  match slots ["alpha", "nextIndex"] json with
  | some [letter, index] => do
    some ⟨← required Letter.ofJson? letter, ← required Json.toUInt32? index⟩
  | _ => none

/-- A bucket is a record of code, letter and index. -/
def Bucket.toJson (b : Bucket) : Json :=
  .record [("portfolioCode", b.portfolio.toJson), ("alpha", b.letter.toJson),
    ("nextIndex", .nat b.index.toNat)]

/-- Reads a bucket. -/
def Bucket.ofJson? (json : Json) : Option Bucket :=
  match slots ["portfolioCode", "alpha", "nextIndex"] json with
  | some [portfolio, letter, index] => do
    some ⟨← required PortfolioCode.ofJson? portfolio, ← required Letter.ofJson? letter,
      ← required Json.toUInt32? index⟩
  | _ => none

/-- A triple is a record of code, letter and sequence. -/
def Triple.toJson (t : Triple) : Json :=
  .record [("portfolio", t.portfolio.toJson), ("alpha", t.letter.toJson),
    ("sequence", .nat t.sequence.toNat)]

/-- Reads a triple. -/
def Triple.ofJson? (json : Json) : Option Triple :=
  match slots ["portfolio", "alpha", "sequence"] json with
  | some [portfolio, letter, sequence] => do
    some ⟨← required PortfolioCode.ofJson? portfolio, ← required Letter.ofJson? letter,
      ← required Json.toUInt32? sequence⟩
  | _ => none

/-- A portfolio is a record of code and name. -/
def Portfolio.toJson (p : Portfolio) : Json :=
  .record [("code", p.code.toJson), ("name", .text p.name)]

/-- Reads a portfolio. -/
def Portfolio.ofJson? (json : Json) : Option Portfolio :=
  match slots ["code", "name"] json with
  | some [code, name] => do
    some ⟨← required PortfolioCode.ofJson? code, ← required Json.toText? name⟩
  | _ => none

/-- A legacy record has no member for a reference that it lacks. -/
def LegacyRecord.toJson (r : LegacyRecord) : Json :=
  .record (("id", .text r.id) ::
    match r.reference with
    | some reference => [("existingReference", .text reference)]
    | none => [])

/-- Reads a legacy record. -/
def LegacyRecord.ofJson? (json : Json) : Option LegacyRecord :=
  match slots ["id", "existingReference"] json with
  | some [id, reference] => do
    some ⟨← required Json.toText? id, ← defaulted none (nullable Json.toText?) reference⟩
  | _ => none

/-- A configuration is a record of its values. -/
def Configuration.toJson (c : Configuration) : Json :=
  .record [("portfolio_min", .nat c.lowest.toNat), ("portfolio_max", .nat c.highest.toNat),
    ("sequence_width", .nat c.digits.toNat),
    ("bucket_capacity", .optional (c.bucketSize.map fun n => .nat n.toNat)),
    ("max_attempts", .nat c.tries.toNat), ("backoff_base_ms", .nat c.firstDelay.toNat),
    ("backoff_max_ms", .nat c.longestDelay.toNat)]

/-- Reads a configuration; a value that is absent is the standard one. -/
def Configuration.ofJson? (json : Json) : Option Configuration :=
  let names := ["portfolio_min", "portfolio_max", "sequence_width", "bucket_capacity",
    "max_attempts", "backoff_base_ms", "backoff_max_ms"]
  match slots names json with
  | some [lowest, highest, width, capacity, attempts, base, max] => do
    some {
      lowest := ← defaulted standard.lowest Json.toUInt16? lowest
      highest := ← defaulted standard.highest Json.toUInt16? highest
      digits := ← defaulted standard.digits Json.toUInt8? width
      bucketSize := ← defaulted standard.bucketSize (nullable Json.toUInt32?) capacity
      tries := ← defaulted standard.tries Json.toUInt32? attempts
      firstDelay := ← defaulted standard.firstDelay Json.toUInt64? base
      longestDelay := ← defaulted standard.longestDelay Json.toUInt64? max }
  | _ => none

/-- The kind of an allocation error is its label. -/
def AllocationError.Kind.toJson (kind : AllocationError.Kind) : Json := .text kind.label

/-- Reads the kind of an allocation error: its label, or an object with the label as its one name
and no value. -/
def AllocationError.Kind.ofJson? : Json → Option AllocationError.Kind
  | .string (some label) => ofLabel? label
  | .object [(some label, .null)] => ofLabel? label
  | _ => none

/-- Decodes the text of a value and writes the value again, where the text decodes. -/
def recode {α : Type} (ofJson? : Json → Option α) (toJson : α → Json) (text : String) :
    Option String :=
  ((Json.ofText? text).bind ofJson?).map fun value => (toJson value).compact

end ReferenceMint
