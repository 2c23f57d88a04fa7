import Mathlib.Tactic.Common
import ReferenceMint.Exchange
import ReferenceMint.Proofs.Json.RoundTrip
import ReferenceMint.Proofs.Registry

/-!
# Values survive their JSON form

Every value is read back from the JSON value that it is written as, and that JSON value is plain, so
the value also survives being written as text.

All records are read alike. An object whose members have different names has in each slot the value
with the name of the slot (`Json.slots_record`), so a record is read back if its fields are: a field
that has no member is read from an empty slot.
-/

namespace ReferenceMint

open Json (Plain PlainItems PlainMembers)

/-! ## Numbers, texts and lists -/

/-- A number within the bound is read back from its JSON form. -/
theorem Json.toNat?_nat {n limit : Nat} (h : n ≤ limit) : (Json.nat n).toNat? limit = some n := by
  unfold Json.nat Json.toNat?
  exact if_pos h

/-- A number of eight bits is read back from its JSON form. -/
theorem Json.toUInt8?_nat (n : UInt8) : (Json.nat n.toNat).toUInt8? = some n := by
  unfold Json.toUInt8?
  rw [Json.toNat?_nat (Numeral.le_highest n.toNat_lt), Option.map_some, UInt8.ofNat_toNat]

/-- A number of sixteen bits is read back from its JSON form. -/
theorem Json.toUInt16?_nat (n : UInt16) : (Json.nat n.toNat).toUInt16? = some n := by
  unfold Json.toUInt16?
  rw [Json.toNat?_nat (Numeral.le_highest n.toNat_lt), Option.map_some, UInt16.ofNat_toNat]

/-- A number of thirty-two bits is read back from its JSON form. -/
theorem Json.toUInt32?_nat (n : UInt32) : (Json.nat n.toNat).toUInt32? = some n := by
  unfold Json.toUInt32?
  rw [Json.toNat?_nat (Numeral.le_highest n.toNat_lt), Option.map_some, UInt32.ofNat_toNat]

/-- A number of sixty-four bits is read back from its JSON form. -/
theorem Json.toUInt64?_nat (n : UInt64) : (Json.nat n.toNat).toUInt64? = some n := by
  unfold Json.toUInt64?
  rw [Json.toNat?_nat (Numeral.le_highest n.toNat_lt), Option.map_some, UInt64.ofNat_toNat]

/-- A number of thirty-two bits, or none, is read back from its JSON form. -/
theorem Json.nullable_toUInt32?_optional (n : Option UInt32) :
    Json.nullable Json.toUInt32? (Json.optional (n.map fun n => .nat n.toNat)) = some n := by
  cases n with
  | none => rfl
  | some n =>
    show (Json.nat n.toNat).toUInt32?.map some = some (some n)
    rw [Json.toUInt32?_nat, Option.map_some]

/-- A number is plain. -/
theorem Json.plain_nat (n : Nat) : Plain (.nat n) := by
  simp [Json.nat, Plain]

/-- A text is plain. -/
theorem Json.plain_text (s : String) : Plain (.text s) := by
  simp [Json.text, Plain]

/-- The items of an array are plain if each of them is. -/
theorem Json.plainItems_of_forall {items : List Json} (h : ∀ item ∈ items, Plain item) :
    PlainItems items := by
  induction items with
  | nil => simp [PlainItems]
  | cons item items ih =>
    rw [PlainItems]
    exact ⟨h item (by simp), ih fun other hother => h other (by simp [hother])⟩

/-- A list is read back from the JSON forms of its items, if each item is. -/
theorem Json.toList?_map {α : Type} {decode : Json → Option α} {encode : α → Json}
    (h : ∀ a, decode (encode a) = some a) (items : List α) :
    Json.toList? decode (.array (items.map encode)) = some items := by
  show (items.map encode).mapM decode = some items
  induction items with
  | nil => rfl
  | cons a items ih =>
    rw [List.map_cons, List.mapM_cons, h, ih]
    rfl

/-! ## Records -/

/-- In an object whose members have different names, the members with a name are the one that has
it, or none. -/
theorem Json.valuesOf_record {fields : List (String × Json)} (h : (fields.map Prod.fst).Nodup)
    (name : String) : Json.valuesOf name (fields.map fun (name, value) => (some name, value)) =
      (fields.lookup name).toList := by
  induction fields with
  | nil => rfl
  | cons field fields ih =>
    obtain ⟨key, value⟩ := field
    rw [List.map_cons, List.nodup_cons] at h
    have hrest := ih h.2
    unfold Json.valuesOf at hrest ⊢
    rw [List.map_cons, List.filterMap_cons, hrest, List.lookup_cons]
    by_cases hkey : key = name
    · -- The name does not occur among the others.
      subst hkey
      have hnone : fields.lookup key = none := by
        rw [List.lookup_eq_none_iff]
        rintro ⟨other, json⟩ hmem
        have hne : key ≠ other := fun heq => h.1 (List.mem_map.mpr ⟨_, hmem, heq.symm⟩)
        simpa using hne
      simp [hnone]
    · have hne : (name == key) = false := by simpa using Ne.symm hkey
      simp [hkey, hne]

/-- The slots of an object whose members have different names hold the values with their names. -/
theorem Json.slots_record (names : List String) {fields : List (String × Json)}
    (h : (fields.map Prod.fst).Nodup) :
    Json.slots names (Json.record fields) = some (names.map fun name => fields.lookup name) := by
  have hslot : Json.slotOf (fields.map fun (name, value) => (some name, value)) =
      fun name => pure (fields.lookup name) := by
    funext name
    unfold Json.slotOf
    rw [Json.valuesOf_record h]
    cases fields.lookup name <;> rfl
  have hnamed : ((fields.map fun (name, value) => (some name, value)).all fun member =>
      member.1.isSome) = true := by simp
  unfold Json.slots Json.record
  simp only [hnamed, if_true, hslot]
  exact List.mapM_pure

/-- An object of plain values is plain. -/
theorem Json.plain_record {fields : List (String × Json)} (h : ∀ field ∈ fields, Plain field.2) :
    Plain (.record fields) := by
  show PlainMembers (fields.map fun (name, value) => (some name, value))
  induction fields with
  | nil => trivial
  | cons field fields ih =>
    rw [List.map_cons, PlainMembers]
    exact ⟨rfl, h field (by simp), ih fun other hother => h other (by simp [hother])⟩

/-! ## Letters and portfolio codes -/

/-- A letter is read back from its character. -/
theorem Letter.ofChar?_char (a : Letter) : Letter.ofChar? a.char = some a := by
  have hall : ∀ p : Fin 26, Letter.ofChar? (Letter.mk p).char = some ⟨p⟩ := by decide
  exact hall a.position

/-- Different letters are different characters. -/
theorem Letter.char_injective {a b : Letter} (h : a.char = b.char) : a = b := by
  have ha := a.ofChar?_char
  rw [h, b.ofChar?_char] at ha
  exact (Option.some.inj ha).symm

/-- The text of a letter is its one character. -/
theorem Letter.toList_text (a : Letter) : a.text.toList = [a.char] := by
  unfold Letter.text
  simp

/-- A letter is read back from its JSON form. -/
theorem Letter.ofJson?_toJson (a : Letter) : Letter.ofJson? a.toJson = some a := by
  unfold Letter.toJson Letter.ofJson? Json.toChar? Json.text Json.toText?
  simp only [Option.map_some, a.toList_text]
  exact a.ofChar?_char

/-- The JSON form of a letter is plain. -/
theorem Letter.plain_toJson (a : Letter) : Plain a.toJson := Json.plain_text _

/-- A portfolio code is read back from its JSON form. -/
theorem PortfolioCode.ofJson?_toJson (code : PortfolioCode) :
    PortfolioCode.ofJson? code.toJson = some code := by
  unfold PortfolioCode.ofJson? PortfolioCode.toJson
  rw [Json.toUInt16?_nat]
  rfl

/-- The JSON form of a portfolio code is plain. -/
theorem PortfolioCode.plain_toJson (code : PortfolioCode) : Plain code.toJson := Json.plain_nat _

/-! ## Cursors, buckets and triples -/

/-- A cursor is read back from its JSON form. -/
theorem Cursor.ofJson?_toJson (s : Cursor) : Cursor.ofJson? s.toJson = some s := by
  unfold Cursor.ofJson? Cursor.toJson
  rw [Json.slots_record _ (by simp)]
  simp [List.lookup_cons, Json.required, Letter.ofJson?_toJson, Json.toUInt32?_nat]

/-- The JSON form of a cursor is plain. -/
theorem Cursor.plain_toJson (s : Cursor) : Plain s.toJson := by
  apply Json.plain_record
  simp [s.letter.plain_toJson, Json.plain_nat]

/-- A bucket is read back from its JSON form. -/
theorem Bucket.ofJson?_toJson (b : Bucket) : Bucket.ofJson? b.toJson = some b := by
  unfold Bucket.ofJson? Bucket.toJson
  rw [Json.slots_record _ (by simp)]
  simp [List.lookup_cons, Json.required, PortfolioCode.ofJson?_toJson, Letter.ofJson?_toJson,
    Json.toUInt32?_nat]

/-- The JSON form of a bucket is plain. -/
theorem Bucket.plain_toJson (b : Bucket) : Plain b.toJson := by
  apply Json.plain_record
  simp [b.portfolio.plain_toJson, b.letter.plain_toJson, Json.plain_nat]

/-- A triple is read back from its JSON form. -/
theorem Triple.ofJson?_toJson (t : Triple) : Triple.ofJson? t.toJson = some t := by
  unfold Triple.ofJson? Triple.toJson
  rw [Json.slots_record _ (by simp)]
  simp [List.lookup_cons, Json.required, PortfolioCode.ofJson?_toJson, Letter.ofJson?_toJson,
    Json.toUInt32?_nat]

/-- The JSON form of a triple is plain. -/
theorem Triple.plain_toJson (t : Triple) : Plain t.toJson := by
  apply Json.plain_record
  simp [t.portfolio.plain_toJson, t.letter.plain_toJson, Json.plain_nat]

/-! ## Portfolios and legacy records -/

/-- A portfolio is read back from its JSON form. -/
theorem Portfolio.ofJson?_toJson (p : Portfolio) : Portfolio.ofJson? p.toJson = some p := by
  unfold Portfolio.ofJson? Portfolio.toJson
  rw [Json.slots_record _ (by simp)]
  simp [List.lookup_cons, Json.required, PortfolioCode.ofJson?_toJson, Json.text, Json.toText?]

/-- The JSON form of a portfolio is plain. -/
theorem Portfolio.plain_toJson (p : Portfolio) : Plain p.toJson := by
  apply Json.plain_record
  simp [p.code.plain_toJson, Json.plain_text]

/-- A legacy record is read back from its JSON form. -/
theorem LegacyRecord.ofJson?_toJson (r : LegacyRecord) :
    LegacyRecord.ofJson? r.toJson = some r := by
  obtain ⟨id, reference⟩ := r
  unfold LegacyRecord.ofJson? LegacyRecord.toJson
  cases reference with
  | none =>
    -- There is no member for the reference, so its slot is empty.
    rw [Json.slots_record _ (by simp)]
    simp [List.lookup_cons, Json.required, Json.defaulted, Json.text, Json.toText?]
  | some reference =>
    rw [Json.slots_record _ (by simp)]
    simp [List.lookup_cons, Json.required, Json.defaulted, Json.nullable, Json.text, Json.toText?]

/-- The JSON form of a legacy record is plain. -/
theorem LegacyRecord.plain_toJson (r : LegacyRecord) : Plain r.toJson := by
  obtain ⟨id, reference⟩ := r
  apply Json.plain_record
  cases reference <;> simp [Json.plain_text]

/-! ## Configurations and kinds of errors -/

/-- A configuration is read back from its JSON form. -/
theorem Configuration.ofJson?_toJson (c : Configuration) :
    Configuration.ofJson? c.toJson = some c := by
  unfold Configuration.ofJson? Configuration.toJson
  dsimp only
  rw [Json.slots_record _ (by simp)]
  simp [List.lookup_cons, Json.defaulted, Json.toUInt8?_nat, Json.toUInt16?_nat, Json.toUInt32?_nat,
    Json.toUInt64?_nat, Json.nullable_toUInt32?_optional]

/-- The JSON form of a configuration is plain. -/
theorem Configuration.plain_toJson (c : Configuration) : Plain c.toJson := by
  have hcapacity : Plain (Json.optional (c.bucketSize.map fun n => .nat n.toNat)) := by
    cases c.bucketSize with
    | none => trivial
    | some n => exact Json.plain_nat _
  apply Json.plain_record
  simp [hcapacity, Json.plain_nat]

/-- A kind is the one with its label. -/
theorem AllocationError.Kind.ofLabel?_label (kind : AllocationError.Kind) :
    ofLabel? kind.label = some kind := by
  cases kind <;> decide

/-- The kind of an allocation error is read back from its JSON form. -/
theorem AllocationError.Kind.ofJson?_toJson (kind : AllocationError.Kind) :
    ofJson? kind.toJson = some kind := kind.ofLabel?_label

/-- The JSON form of the kind of an allocation error is plain. -/
theorem AllocationError.Kind.plain_toJson (kind : AllocationError.Kind) : Plain kind.toJson :=
  Json.plain_text _

end ReferenceMint
