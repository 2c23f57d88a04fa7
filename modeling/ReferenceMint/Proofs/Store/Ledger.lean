import Mathlib.Tactic.Common
import ReferenceMint.Proofs.Exchange
import ReferenceMint.Store.Ledger

/-!
# Stored ledgers are read back

The bytes of a ledger are those of the text of its JSON form, and `ofBytes?_bytes` says that they
are read as the ledger, whatever it holds. So nothing about a portfolio is lost between two claims.
-/

namespace ReferenceMint

/-- A timestamp is read back from its JSON form. -/
theorem Timestamp.ofJson?_toJson (t : Timestamp) : Timestamp.ofJson? t.toJson = some t := by
  unfold Timestamp.ofJson? Timestamp.toJson Timestamp.ofText?
  simp [Json.text, Json.toText?, t.denotes]

namespace Store.Ledger

/-- A ledger is read back from its JSON form. -/
theorem ofJson?_toJson (l : Ledger) : ofJson? l.toJson = some l := by
  unfold ofJson? toJson
  rw [Json.slots_record _ (by simp)]
  simp [List.lookup_cons, Json.required, PortfolioCode.ofJson?_toJson,
    Json.toList?_map Bucket.ofJson?_toJson, Timestamp.ofJson?_toJson]

/-- The JSON form of a ledger is plain. -/
theorem plain_toJson (l : Ledger) : l.toJson.Plain := by
  have hrows : Json.PlainItems (l.rows.map Bucket.toJson) := by
    apply Json.plainItems_of_forall
    intro item hitem
    obtain ⟨row, -, rfl⟩ := List.mem_map.mp hitem
    exact row.plain_toJson
  have harray : Json.Plain (.array (l.rows.map Bucket.toJson)) := hrows
  apply Json.plain_record
  simp [l.portfolio.plain_toJson, harray, Timestamp.toJson, Json.plain_text]

/-- A ledger is read back from its stored bytes. -/
theorem ofBytes?_bytes (l : Ledger) : ofBytes? l.bytes = some l := by
  -- The bytes of a text are decoded as the text, since they are valid.
  have hutf8 : String.fromUTF8? l.text.toUTF8 = some l.text := by
    unfold String.fromUTF8?
    rw [String.toUTF8_eq_toByteArray, dif_pos l.text.isValidUTF8]
    rfl
  unfold ofBytes? bytes
  rw [hutf8]
  unfold ofText? text
  rw [Option.bind_some, Json.ofText?_compact l.plain_toJson, Option.bind_some]
  exact ofJson?_toJson l

end Store.Ledger

end ReferenceMint
