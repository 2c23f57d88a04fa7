import Mathlib.Data.List.DropRight
import Mathlib.Tactic.Common
import ReferenceMint.Json.Reader
import ReferenceMint.Json.Writer
import ReferenceMint.Proofs.Text.Numeral

/-!
# Written JSON is read back

The text of a value is read as the value, whether it is written without white space
(`ofText?_compact`) or spread over lines (`ofText?_pretty`). This needs the value to be plain: every
string in it denotes a text, and every number is written without fraction and exponent. Half of a
surrogate pair, and digits behind a point, are kept by the reader in forms that the writer does not
restore, and no value of this library has them.

In between stands the relation of a value to the texts that spell it (`Spells`), which leaves white
space between the parts of a value open. What a text spells is read from it (`read_of_spells`): a
written character in one step (`readString_writeChar`), a string literal by induction on its
characters, and values, items and members by induction on the fuel, of which twice the number of
characters is enough. And both writers spell the value (`spells_chars`, `spells_spread`).
-/

namespace ReferenceMint.Json

open Numeral (NoDigit)

mutual

/-- Every string in the value denotes a text, and every number is an integer written out. -/
def Plain : Json → Prop
  | .null => True
  | .bool _ => True
  | .number n => n.scaling = []
  | .string text => text.isSome
  | .array items => PlainItems items
  | .object members => PlainMembers members

/-- Every item is plain. -/
def PlainItems : List Json → Prop
  | [] => True
  | item :: items => Plain item ∧ PlainItems items

/-- Every member is plain, and its name denotes a text. -/
def PlainMembers : List (Option String × Json) → Prop
  | [] => True
  | (name, value) :: members => name.isSome ∧ Plain value ∧ PlainMembers members

end

/-- A text that does not go on with what could belong to a number in front of it. -/
def Ends (cs : List Char) : Prop :=
  ∀ c ∈ cs.head?, c.isDigit = false ∧ c ≠ '.' ∧ c ≠ 'e' ∧ c ≠ 'E'

/-- Such a text does not go on with a digit. -/
theorem Ends.noDigit {cs : List Char} (h : Ends cs) : NoDigit cs := fun c hc => (h c hc).1

/-- The end of the text ends a number. -/
theorem ends_nil : Ends [] := fun c hc => by simp at hc

/-- A mark of punctuation ends a number. -/
theorem ends_cons {c : Char} {cs : List Char}
    (h : c.isDigit = false ∧ c ≠ '.' ∧ c ≠ 'e' ∧ c ≠ 'E') : Ends (c :: cs) := fun d hd => by
  have hcd : c = d := by simpa using hd
  exact hcd ▸ h

/-- There is no white space to skip in front of a character that is none. -/
theorem skipSpace_cons {c : Char} (cs : List Char) (h : isSpace c = false) :
    skipSpace (c :: cs) = c :: cs := by
  unfold skipSpace
  rw [List.dropWhile_cons_of_neg (by simp [h])]

/-! ## Strings -/

/-- Four hexadecimal digits are read alike whatever follows. -/
theorem readUnit_append (a b c d : Char) (cs : List Char) :
    readUnit (a :: b :: c :: d :: cs) = (readUnit [a, b, c, d]).map fun r => (r.1, cs) := by
  simp only [readUnit]
  cases List.foldlM (fun n digit => do return 16 * n + (← Numeral.hexValue digit)) 0
      [a, b, c, d] with
  | none => rfl
  | some n => rfl

/-- The digits of a control character are read as its number. -/
theorem readUnit_controlDigits {c : Char} (h : c.toNat < 0x20) (cs : List Char) :
    readUnit (controlDigits c ++ cs) = some (c.toNat, cs) := by
  -- There are few enough control characters to try them all.
  have hlen : ∀ n < 0x20, ((Nat.toDigits 16 n).leftpad 4 '0').length = 4 := by decide
  have hread : ∀ n < 0x20, readUnit ((Nat.toDigits 16 n).leftpad 4 '0') = some (n, []) := by decide
  have h4 := hlen c.toNat h
  have hr := hread c.toNat h
  unfold controlDigits
  generalize (Nat.toDigits 16 c.toNat).leftpad 4 '0' = ds at h4 hr
  match ds, h4 with
  | [d1, d2, d3, d4], _ =>
    have happ : [d1, d2, d3, d4] ++ cs = d1 :: d2 :: d3 :: d4 :: cs := rfl
    rw [happ, readUnit_append, hr]
    rfl

/-- What is read behind a character, with the character in front. -/
def pushed (c : Char) (r : Option (List Char) × List Char) : Option (List Char) × List Char :=
  (pushChar (some c) r.1, r.2)

/-- A short escape is read as the character that it stands for. -/
theorem readString_escape {c d : Char} (fuel : Nat) (cs : List Char) (hd : d ≠ 'u')
    (h : shortEscape d = some c) :
    readString (fuel + 1) ('\\' :: d :: cs) = (readString fuel cs).map (pushed c) := by
  conv_lhs => unfold readString
  rw [if_neg (by decide), if_pos rfl]
  split
  · rename_i heq
    injection heq with heq
    exact absurd heq hd
  · rename_i heq
    injection heq with h1 h2
    subst h1 h2
    rw [h]
    cases readString fuel cs <;> rfl
  · rename_i heq
    exact absurd heq (by simp)

/-- A written character is read in one step. -/
theorem readString_writeChar (c : Char) (fuel : Nat) (cs : List Char) :
    readString (fuel + 1) (writeChar c ++ cs) = (readString fuel cs).map (pushed c) := by
  unfold writeChar
  split_ifs with h1 h2 h3 h4 h5 h6 h7 h8
  · subst h1; exact readString_escape fuel cs (by decide) (by decide)
  · subst h2; exact readString_escape fuel cs (by decide) (by decide)
  · subst h3; exact readString_escape fuel cs (by decide) (by decide)
  · subst h4; exact readString_escape fuel cs (by decide) (by decide)
  · subst h5; exact readString_escape fuel cs (by decide) (by decide)
  · subst h6; exact readString_escape fuel cs (by decide) (by decide)
  · subst h7; exact readString_escape fuel cs (by decide) (by decide)
  · -- A control character is read through the number of its code unit, which is no surrogate.
    have hlead : isLeading c.toNat = false := by simp [isLeading]; omega
    have htrail : isTrailing c.toNat = false := by simp [isTrailing]; omega
    have happ : '\\' :: 'u' :: controlDigits c ++ cs = '\\' :: 'u' :: (controlDigits c ++ cs) := rfl
    rw [happ]
    conv_lhs => unfold readString
    rw [if_neg (by decide), if_pos rfl]
    simp only [readUnit_controlDigits h8, Option.bind_eq_bind, Option.bind_some, hlead, htrail,
      Bool.false_eq_true, if_false, Char.ofNat_toNat]
    cases readString fuel cs <;> rfl
  · have happ : [c] ++ cs = c :: cs := rfl
    rw [happ]
    conv_lhs => unfold readString
    rw [if_neg h1, if_neg h2, if_neg h8]
    cases readString fuel cs <;> rfl

/-- The characters between the quotes are read back, with the closing quote. -/
theorem readString_flatMap (text : List Char) (fuel : Nat) (cs : List Char)
    (hf : text.length < fuel) :
    readString fuel (text.flatMap writeChar ++ '"' :: cs) = some (some text, cs) := by
  induction text generalizing fuel with
  | nil =>
    obtain ⟨fuel, rfl⟩ : ∃ n, fuel = n + 1 := ⟨fuel - 1, by simp at hf; omega⟩
    unfold readString
    simp
  | cons c text ih =>
    obtain ⟨fuel, rfl⟩ : ∃ n, fuel = n + 1 := ⟨fuel - 1, by simp at hf; omega⟩
    rw [List.flatMap_cons, List.append_assoc, readString_writeChar,
      ih fuel (by simp at hf; omega)]
    rfl

/-- A written character is at least one character. -/
theorem one_le_length_writeChar (c : Char) : 1 ≤ (writeChar c).length := by
  unfold writeChar
  split_ifs <;> simp

/-- A text is no longer than its written form. -/
theorem length_le_length_flatMap (text : List Char) :
    text.length ≤ (text.flatMap writeChar).length := by
  induction text with
  | nil => simp
  | cons c text ih =>
    have hone := one_le_length_writeChar c
    simp only [List.flatMap_cons, List.length_append, List.length_cons]
    omega

/-- A string literal is read back from behind its opening quote. -/
theorem readString_literal (s : String) (cs : List Char) :
    readString ((s.toList.flatMap writeChar ++ '"' :: cs).length + 1)
      (s.toList.flatMap writeChar ++ '"' :: cs) = some (some s.toList, cs) := by
  apply readString_flatMap
  have hlength := length_le_length_flatMap s.toList
  rw [List.length_append]
  omega

/-! ## Numbers -/

/-- The digits before the point are read back. -/
theorem readWhole_digits (n : Nat) {cs : List Char} (h : NoDigit cs) :
    readWhole (Numeral.digits n ++ cs) = some (Numeral.digits n, cs) := by
  have hdigits : ∀ c ∈ Numeral.digits n, c.isDigit = true := fun c hc =>
    Numeral.isDigit_of_mem_digits hc
  have htake := Numeral.takeWhile_digits_append hdigits h
  obtain ⟨c, ds, hds⟩ := List.exists_cons_of_ne_nil (Numeral.digits_ne_nil n)
  by_cases hc : c = '0'
  · -- A zero in front is the whole numeral.
    subst hc
    obtain rfl := Numeral.eq_zero_of_digits hds
    have hnil : cs.takeWhile Char.isDigit = [] := by
      have hdigits : ∀ c ∈ ([] : List Char), c.isDigit = true := by simp
      exact Numeral.takeWhile_digits_append hdigits h
    have hz : Numeral.digits 0 = ['0'] := rfl
    rw [hz]
    simp [readWhole, hnil]
  · rw [hds] at htake ⊢
    unfold readWhole
    split
    · rename_i heq
      injection heq with heq
      exact absurd heq hc
    · unfold readDigits
      simp only [htake]
      simp

/-- A number without fraction and exponent is read back from behind its sign. -/
theorem readUnsigned_digits (negative : Bool) (n : Nat) {cs : List Char} (h : Ends cs) :
    readUnsigned negative (Numeral.digits n ++ cs) = some (⟨negative, n, []⟩, cs) := by
  have hfraction : readFraction cs = some ([], cs) := by
    unfold readFraction
    split
    · exact absurd rfl (h '.' rfl).2.1
    · rfl
  have hexponent : readExponent cs = some ([], cs) := by
    unfold readExponent
    split
    · rename_i c ds
      obtain ⟨-, -, he, hE⟩ := h c rfl
      simp [he, hE]
    · rfl
  unfold readUnsigned
  rw [readWhole_digits n h.noDigit]
  simp only [Option.bind_eq_bind, Option.bind_some, hfraction, hexponent, Numeral.value_digits,
    List.append_nil]

/-- A number without fraction and exponent is read back. -/
theorem readNumber_chars {n : Number} (hn : n.scaling = []) {cs : List Char} (h : Ends cs) :
    readNumber (n.chars ++ cs) = some (n, cs) := by
  obtain ⟨negative, whole, scaling⟩ := n
  obtain rfl : scaling = [] := hn
  cases negative with
  | true =>
    have hchars : (Number.chars ⟨true, whole, []⟩) ++ cs = '-' :: (Numeral.digits whole ++ cs) := by
      simp [Number.chars]
    rw [hchars]
    exact readUnsigned_digits true whole h
  | false =>
    have hchars : (Number.chars ⟨false, whole, []⟩) ++ cs = Numeral.digits whole ++ cs := by
      simp [Number.chars]
    obtain ⟨c, ds, hds⟩ := List.exists_cons_of_ne_nil (Numeral.digits_ne_nil whole)
    have hc : c.isDigit = true := Numeral.isDigit_of_mem_digits (n := whole) (by rw [hds]; simp)
    have hread := readUnsigned_digits false whole h
    rw [hchars]
    rw [hds] at hread ⊢
    -- A digit in front is no minus sign.
    unfold readNumber
    split
    · rename_i heq
      injection heq with heq
      subst heq
      exact absurd hc (by decide)
    · exact hread

/-- The first character of a number, and what it is not. -/
theorem exists_chars_number {n : Number} :
    ∃ c cs, n.chars = c :: cs ∧ isSpace c = false ∧ c ≠ 'n' ∧ c ≠ 't' ∧ c ≠ 'f' ∧ c ≠ '"' ∧
      c ≠ '[' ∧ c ≠ '\x7b' ∧ c ≠ ']' := by
  obtain ⟨negative, whole, scaling⟩ := n
  cases negative with
  | true => exact ⟨'-', _, rfl, by decide⟩
  | false =>
    obtain ⟨c, ds, hds⟩ := List.exists_cons_of_ne_nil (Numeral.digits_ne_nil whole)
    have hc : c.isDigit = true := Numeral.isDigit_of_mem_digits (n := whole) (by rw [hds]; simp)
    have hchars : Number.chars ⟨false, whole, scaling⟩ = c :: (ds ++ scaling) := by
      simp [Number.chars, hds]
    refine ⟨c, _, hchars, ?_⟩
    have hne : ∀ d : Char, d.isDigit = false → c ≠ d := by
      rintro d hd rfl
      rw [hc] at hd
      exact absurd hd (by decide)
    refine ⟨?_, hne _ (by decide), hne _ (by decide), hne _ (by decide), hne _ (by decide),
      hne _ (by decide), hne _ (by decide), hne _ (by decide)⟩
    simp [isSpace, hne ' ' (by decide), hne '\n' (by decide), hne '\t' (by decide),
      hne '\r' (by decide)]

/-! ## Values -/

mutual

/-- A text that starts with a value as it is written, with white space between its parts, and goes
on with the rest. -/
inductive Spells : Json → List Char → List Char → Prop
  | null {cs rest : List Char} (h : skipSpace cs = "null".toList ++ rest) : Spells .null cs rest
  | bool {b : Bool} {cs rest : List Char} (h : skipSpace cs = writeBool b ++ rest) :
    Spells (.bool b) cs rest
  /-- A number goes on as long as it can. -/
  | number {n : Number} {cs rest : List Char} (hn : n.scaling = []) (hends : Ends rest)
      (h : skipSpace cs = n.chars ++ rest) : Spells (.number n) cs rest
  | text {s : String} {cs rest : List Char} (h : skipSpace cs = writeString (some s) ++ rest) :
    Spells (.string (some s)) cs rest
  | emptyArray {cs inner rest : List Char} (h : skipSpace cs = '[' :: inner)
      (hclose : skipSpace inner = ']' :: rest) : Spells (.array []) cs rest
  | array {items : List Json} {cs inner rest : List Char} (h : skipSpace cs = '[' :: inner)
      (hitems : SpellsItems items inner rest) : Spells (.array items) cs rest
  | emptyObject {cs inner rest : List Char} (h : skipSpace cs = '\x7b' :: inner)
      (hclose : skipSpace inner = '\x7d' :: rest) : Spells (.object []) cs rest
  | object {members : List (Option String × Json)} {cs inner rest : List Char}
      (h : skipSpace cs = '\x7b' :: inner) (hmembers : SpellsMembers members inner rest) :
    Spells (.object members) cs rest

/-- Items with commas between them, and the closing bracket. -/
inductive SpellsItems : List Json → List Char → List Char → Prop
  | last {item : Json} {cs behind rest : List Char} (hitem : Spells item cs behind)
      (hclose : skipSpace behind = ']' :: rest) : SpellsItems [item] cs rest
  | cons {item : Json} {items : List Json} {cs behind next rest : List Char}
      (hitem : Spells item cs behind) (hcomma : skipSpace behind = ',' :: next)
      (hitems : SpellsItems items next rest) : SpellsItems (item :: items) cs rest

/-- Members with commas between them, and the closing brace. -/
inductive SpellsMembers : List (Option String × Json) → List Char → List Char → Prop
  | last {name : String} {value : Json} {cs inner behind rest : List Char}
      (hname : skipSpace cs = writeString (some name) ++ ':' :: inner)
      (hvalue : Spells value inner behind) (hclose : skipSpace behind = '\x7d' :: rest) :
    SpellsMembers [(some name, value)] cs rest
  | cons {name : String} {value : Json} {members : List (Option String × Json)}
      {cs inner behind next rest : List Char}
      (hname : skipSpace cs = writeString (some name) ++ ':' :: inner)
      (hvalue : Spells value inner behind) (hcomma : skipSpace behind = ',' :: next)
      (hmembers : SpellsMembers members next rest) :
    SpellsMembers ((some name, value) :: members) cs rest

end

/-! ### Reading -/

/-- Skipping white space makes no text longer. -/
theorem length_skipSpace_le (cs : List Char) : (skipSpace cs).length ≤ cs.length :=
  (List.dropWhile_suffix isSpace).length_le

/-- A text that is longer than what follows its white space is longer than what follows that. -/
theorem length_lt_of_skipSpace (front : List Char) {cs rest : List Char}
    (h : skipSpace cs = front ++ rest) (hfront : front ≠ []) : rest.length < cs.length := by
  have hle := length_skipSpace_le cs
  have hpos := List.length_pos_iff.mpr hfront
  rw [h, List.length_append] at hle
  omega

/-- What follows the name of a member and its colon is shorter. -/
theorem length_lt_of_name {name : String} {cs inner : List Char}
    (h : skipSpace cs = writeString (some name) ++ ':' :: inner) : inner.length < cs.length := by
  have hcolon : skipSpace cs = (writeString (some name) ++ [':']) ++ inner := by
    rw [h, List.append_assoc]
    rfl
  exact length_lt_of_skipSpace _ hcolon (by simp)

/-- The text of a value starts neither with the end of the text nor with a closing bracket. -/
theorem Spells.head {value : Json} {cs rest : List Char} (h : Spells value cs rest) :
    ∃ c tail, skipSpace cs = c :: tail ∧ c ≠ ']' := by
  cases h with
  | null h => exact ⟨'n', _, h, by decide⟩
  | @bool b _ _ h => cases b with
    | true => exact ⟨'t', _, h, by decide⟩
    | false => exact ⟨'f', _, h, by decide⟩
  | @number n _ _ _ _ h =>
    obtain ⟨c, ds, hds, -, -, -, -, -, -, -, hclose⟩ := exists_chars_number (n := n)
    rw [hds] at h
    exact ⟨c, _, h, hclose⟩
  | text h => exact ⟨'"', _, h, by decide⟩
  | emptyArray h _ => exact ⟨'[', _, h, by decide⟩
  | array h _ => exact ⟨'[', _, h, by decide⟩
  | emptyObject h _ => exact ⟨'\x7b', _, h, by decide⟩
  | object h _ => exact ⟨'\x7b', _, h, by decide⟩

/-- The items of an array do not start with a closing bracket. -/
theorem SpellsItems.head {items : List Json} {cs rest : List Char} (h : SpellsItems items cs rest) :
    ∃ c tail, skipSpace cs = c :: tail ∧ c ≠ ']' := by
  cases h with
  | last hitem _ => exact hitem.head
  | cons hitem _ _ => exact hitem.head

/-- The members of an object start with a quote. -/
theorem SpellsMembers.head {members : List (Option String × Json)} {cs rest : List Char}
    (h : SpellsMembers members cs rest) : ∃ tail, skipSpace cs = '"' :: tail := by
  cases h with
  | last hname _ _ => exact ⟨_, hname⟩
  | cons hname _ _ _ => exact ⟨_, hname⟩

/-- White space in front of a value makes no difference. -/
theorem Spells.of_skipSpace {value : Json} {cs ds rest : List Char} (h : Spells value cs rest)
    (hskip : skipSpace ds = skipSpace cs) : Spells value ds rest := by
  cases h with
  | null h => exact .null (hskip.trans h)
  | bool h => exact .bool (hskip.trans h)
  | number hn hends h => exact .number hn hends (hskip.trans h)
  | text h => exact .text (hskip.trans h)
  | emptyArray h hclose => exact .emptyArray (hskip.trans h) hclose
  | array h hitems => exact .array (hskip.trans h) hitems
  | emptyObject h hclose => exact .emptyObject (hskip.trans h) hclose
  | object h hmembers => exact .object (hskip.trans h) hmembers

/-- Nor does it in front of items. -/
theorem SpellsItems.of_skipSpace {items : List Json} {cs ds rest : List Char}
    (h : SpellsItems items cs rest) (hskip : skipSpace ds = skipSpace cs) :
    SpellsItems items ds rest := by
  cases h with
  | last hitem hclose => exact .last (hitem.of_skipSpace hskip) hclose
  | cons hitem hcomma hitems => exact .cons (hitem.of_skipSpace hskip) hcomma hitems

/-- Nor does it in front of members. -/
theorem SpellsMembers.of_skipSpace {members : List (Option String × Json)} {cs ds rest : List Char}
    (h : SpellsMembers members cs rest) (hskip : skipSpace ds = skipSpace cs) :
    SpellsMembers members ds rest := by
  cases h with
  | last hname hvalue hclose => exact .last (hskip.trans hname) hvalue hclose
  | cons hname hvalue hcomma hmembers => exact .cons (hskip.trans hname) hvalue hcomma hmembers

/-- White space that was skipped is not there any more. -/
theorem skipSpace_skipSpace (cs : List Char) : skipSpace (skipSpace cs) = skipSpace cs :=
  List.dropWhile_idempotent isSpace cs

/-- The name of a member is read back, with the colon behind it. -/
theorem readName_literal {name : String} {cs inner : List Char}
    (h : skipSpace cs = writeString (some name) ++ ':' :: inner) :
    readName (cs.length + 1) cs = some (some name, inner) := by
  have hform : writeString (some name) ++ ':' :: inner =
      '"' :: (name.toList.flatMap writeChar ++ '"' :: ':' :: inner) := by
    show ('"' :: name.toList.flatMap writeChar ++ ['"']) ++ ':' :: inner = _
    rw [List.cons_append, List.cons_append, List.append_assoc]
    rfl
  rw [hform] at h
  have hfuel : name.toList.length < cs.length + 1 := by
    have hskip := length_skipSpace_le cs
    have hlength := length_le_length_flatMap name.toList
    rw [h] at hskip
    simp only [List.length_cons, List.length_append] at hskip
    omega
  have hcolon : skipSpace (':' :: inner) = ':' :: inner := skipSpace_cons inner (by decide)
  unfold readName
  rw [h]
  simp only [readString_flatMap name.toList _ (':' :: inner) hfuel, Option.bind_eq_bind,
    Option.bind_some, hcolon, Option.map_some, String.ofList_toList]

section Reading

variable {fuel : Nat} {cs inner behind next rest : List Char}

/-- The literal for no value is read back. -/
theorem readValue_null (h : skipSpace cs = "null".toList ++ rest) :
    readValue (fuel + 1) cs = some (.null, rest) := by
  unfold readValue
  rw [h]
  simp [dropWord]

/-- A truth value is read back. -/
theorem readValue_bool {b : Bool} (h : skipSpace cs = writeBool b ++ rest) :
    readValue (fuel + 1) cs = some (.bool b, rest) := by
  unfold readValue
  rw [h]
  cases b <;> simp [writeBool, dropWord]

/-- A number is read back. -/
theorem readValue_number {n : Number} (hn : n.scaling = []) (hends : Ends rest)
    (h : skipSpace cs = n.chars ++ rest) : readValue (fuel + 1) cs = some (.number n, rest) := by
  obtain ⟨c, ds, hds, -, h1, h2, h3, h4, h5, h6, -⟩ := exists_chars_number (n := n)
  have hread := readNumber_chars hn hends
  rw [hds, List.cons_append] at hread h
  unfold readValue
  rw [h]
  simp only [h1, h2, h3, h4, h5, h6, if_false, hread, Option.map_some]

/-- A string literal is read back. -/
theorem readValue_text {s : String} (h : skipSpace cs = writeString (some s) ++ rest) :
    readValue (fuel + 1) cs = some (.string (some s), rest) := by
  have hform : writeString (some s) ++ rest =
      '"' :: (s.toList.flatMap writeChar ++ '"' :: rest) := by
    show ('"' :: s.toList.flatMap writeChar ++ ['"']) ++ rest = _
    rw [List.cons_append, List.cons_append, List.append_assoc]
    rfl
  unfold readValue
  rw [h, hform]
  simp only [Char.reduceEq, if_false, if_true, readString_literal, Option.map_some,
    String.ofList_toList]

/-- An array without items is read back. -/
theorem readValue_emptyArray (h : skipSpace cs = '[' :: inner)
    (hclose : skipSpace inner = ']' :: rest) :
    readValue (fuel + 1) cs = some (.array [], rest) := by
  unfold readValue
  rw [h]
  simp [hclose]

/-- An array is read back if its items are, which do not start with a closing bracket. -/
theorem readValue_array {items : List Json} (h : skipSpace cs = '[' :: inner)
    (hhead : ∃ c tail, skipSpace inner = c :: tail ∧ c ≠ ']')
    (hread : readItems fuel (skipSpace inner) = some (items, rest)) :
    readValue (fuel + 1) cs = some (.array items, rest) := by
  obtain ⟨c, tail, hinner, hc⟩ := hhead
  unfold readValue
  rw [h]
  simp only [Char.reduceEq, if_false, if_true]
  split
  · next hclose =>
    rw [hinner] at hclose
    exact absurd (List.cons.inj hclose).1 hc
  · rw [hread]
    rfl

/-- An object without members is read back. -/
theorem readValue_emptyObject (h : skipSpace cs = '\x7b' :: inner)
    (hclose : skipSpace inner = '\x7d' :: rest) :
    readValue (fuel + 1) cs = some (.object [], rest) := by
  unfold readValue
  rw [h]
  simp [hclose]

/-- An object is read back if its members are, which start with a quote. -/
theorem readValue_object {members : List (Option String × Json)}
    (h : skipSpace cs = '\x7b' :: inner) (hhead : ∃ tail, skipSpace inner = '"' :: tail)
    (hread : readMembers fuel (skipSpace inner) = some (members, rest)) :
    readValue (fuel + 1) cs = some (.object members, rest) := by
  obtain ⟨tail, hinner⟩ := hhead
  unfold readValue
  rw [h]
  simp only [Char.reduceEq, if_false, if_true]
  split
  · next hclose =>
    rw [hinner] at hclose
    exact absurd (List.cons.inj hclose).1 (by decide)
  · rw [hread]
    rfl

/-- What follows an item decides whether there are more. -/
theorem readItems_cons {item : Json} {items : List Json}
    (hitem : readValue fuel cs = some (item, behind)) (hcomma : skipSpace behind = ',' :: next)
    (hitems : readItems fuel next = some (items, rest)) :
    readItems (fuel + 1) cs = some (item :: items, rest) := by
  unfold readItems
  rw [hitem]
  simp only [Option.bind_eq_bind, Option.bind_some, hcomma, hitems, Option.map_some]

/-- Behind the last item is the closing bracket. -/
theorem readItems_last {item : Json} (hitem : readValue fuel cs = some (item, behind))
    (hclose : skipSpace behind = ']' :: rest) : readItems (fuel + 1) cs = some ([item], rest) := by
  unfold readItems
  rw [hitem]
  simp only [Option.bind_eq_bind, Option.bind_some, hclose]

/-- What follows a member decides whether there are more. -/
theorem readMembers_cons {name : String} {value : Json} {members : List (Option String × Json)}
    (hname : skipSpace cs = writeString (some name) ++ ':' :: inner)
    (hvalue : readValue fuel inner = some (value, behind)) (hcomma : skipSpace behind = ',' :: next)
    (hmembers : readMembers fuel next = some (members, rest)) :
    readMembers (fuel + 1) cs = some ((some name, value) :: members, rest) := by
  unfold readMembers
  rw [readName_literal hname]
  simp only [Option.bind_eq_bind, Option.bind_some, hvalue, hcomma, hmembers, Option.map_some]

/-- Behind the last member is the closing brace. -/
theorem readMembers_last {name : String} {value : Json}
    (hname : skipSpace cs = writeString (some name) ++ ':' :: inner)
    (hvalue : readValue fuel inner = some (value, behind))
    (hclose : skipSpace behind = '\x7d' :: rest) :
    readMembers (fuel + 1) cs = some ([(some name, value)], rest) := by
  unfold readMembers
  rw [readName_literal hname]
  simp only [Option.bind_eq_bind, Option.bind_some, hvalue, hclose]

end Reading

/-- What a text spells is read from it if there is fuel for its characters, and takes some of
them. -/
theorem read_of_spells (fuel : Nat) :
    (∀ {value : Json} {cs rest : List Char}, Spells value cs rest → 2 * cs.length ≤ fuel →
      readValue fuel cs = some (value, rest) ∧ rest.length < cs.length) ∧
    (∀ {items : List Json} {cs rest : List Char}, SpellsItems items cs rest →
      2 * cs.length + 1 ≤ fuel →
      readItems fuel cs = some (items, rest) ∧ rest.length < cs.length) ∧
    ∀ {members : List (Option String × Json)} {cs rest : List Char},
      SpellsMembers members cs rest → 2 * cs.length + 1 ≤ fuel →
      readMembers fuel cs = some (members, rest) ∧ rest.length < cs.length := by
  induction fuel with
  | zero =>
    refine ⟨fun {value cs rest} h hfuel => ?_, fun _ hfuel => by omega, fun _ hfuel => by omega⟩
    -- No value is spelled by the empty text.
    obtain ⟨c, tail, hhead, -⟩ := h.head
    obtain rfl : cs = [] := List.length_eq_zero_iff.mp (by omega)
    exact nomatch hhead
  | succ fuel ih =>
    obtain ⟨ihvalue, ihitems, ihmembers⟩ := ih
    refine ⟨fun {value cs rest} h hfuel => ?_, fun {items cs rest} h hfuel => ?_,
      fun {members cs rest} h hfuel => ?_⟩
    · cases h with
      | null h => exact ⟨readValue_null h, length_lt_of_skipSpace _ h (by decide)⟩
      | @bool b _ _ h =>
        exact ⟨readValue_bool h, length_lt_of_skipSpace _ h (by cases b <;> decide)⟩
      | @number n _ _ hn hends h =>
        obtain ⟨c, ds, hds, -⟩ := exists_chars_number (n := n)
        exact ⟨readValue_number hn hends h, length_lt_of_skipSpace _ h (by simp [hds])⟩
      | text h => exact ⟨readValue_text h, length_lt_of_skipSpace _ h (List.cons_ne_nil _ _)⟩
      | emptyArray h hclose =>
        have hinner := length_lt_of_skipSpace ['['] h (by decide)
        have hrest := length_lt_of_skipSpace [']'] hclose (by decide)
        exact ⟨readValue_emptyArray h hclose, by omega⟩
      | @array _ _ inner _ h hitems =>
        have hinner := length_lt_of_skipSpace ['['] h (by decide)
        have hskip := length_skipSpace_le inner
        obtain ⟨hread, hrest⟩ :=
          ihitems (hitems.of_skipSpace (skipSpace_skipSpace inner)) (by omega)
        exact ⟨readValue_array h hitems.head hread, by omega⟩
      | emptyObject h hclose =>
        have hinner := length_lt_of_skipSpace ['\x7b'] h (by decide)
        have hrest := length_lt_of_skipSpace ['\x7d'] hclose (by decide)
        exact ⟨readValue_emptyObject h hclose, by omega⟩
      | @object _ _ inner _ h hmembers =>
        have hinner := length_lt_of_skipSpace ['\x7b'] h (by decide)
        have hskip := length_skipSpace_le inner
        obtain ⟨hread, hrest⟩ :=
          ihmembers (hmembers.of_skipSpace (skipSpace_skipSpace inner)) (by omega)
        exact ⟨readValue_object h hmembers.head hread, by omega⟩
    · cases h with
      | last hitem hclose =>
        obtain ⟨hread, hbehind⟩ := ihvalue hitem (by omega)
        have hrest := length_lt_of_skipSpace [']'] hclose (by decide)
        exact ⟨readItems_last hread hclose, by omega⟩
      | cons hitem hcomma hitems =>
        obtain ⟨hread, hbehind⟩ := ihvalue hitem (by omega)
        have hnext := length_lt_of_skipSpace [','] hcomma (by decide)
        obtain ⟨hreads, hrest⟩ := ihitems hitems (by omega)
        exact ⟨readItems_cons hread hcomma hreads, by omega⟩
    · cases h with
      | @last name _ _ inner _ _ hname hvalue hclose =>
        have hinner := length_lt_of_name hname
        obtain ⟨hread, hbehind⟩ := ihvalue hvalue (by omega)
        have hrest := length_lt_of_skipSpace ['\x7d'] hclose (by decide)
        exact ⟨readMembers_last hname hread hclose, by omega⟩
      | @cons name _ _ _ inner _ _ _ hname hvalue hcomma hmembers =>
        have hinner := length_lt_of_name hname
        obtain ⟨hread, hbehind⟩ := ihvalue hvalue (by omega)
        have hnext := length_lt_of_skipSpace [','] hcomma (by decide)
        obtain ⟨hreads, hrest⟩ := ihmembers hmembers (by omega)
        exact ⟨readMembers_cons hname hread hcomma hreads, by omega⟩

/-- A text that spells a value, and then nothing but white space, is the text of the value. -/
theorem ofChars?_of_spells {value : Json} {cs rest : List Char} (h : Spells value cs rest)
    (hrest : skipSpace rest = []) : ofChars? cs = some value := by
  obtain ⟨hread, -⟩ := (read_of_spells (2 * cs.length + 1)).1 h (by omega)
  unfold ofChars?
  rw [hread]
  simp only [hrest, List.isEmpty_nil, if_true]

/-! ### Writing -/

mutual

/-- A plain value is spelled by its text, where this goes on with nothing that could belong to
it. -/
theorem spells_chars : ∀ (value : Json), Plain value → ∀ {rest : List Char}, Ends rest →
    Spells value (chars value ++ rest) rest
  | .null, _, rest, _ => by
    rw [chars]
    exact .null (skipSpace_cons _ (by decide))
  | .bool b, _, rest, _ => by
    rw [chars]
    exact .bool (by cases b <;> exact skipSpace_cons _ (by decide))
  | .number n, h, rest, hrest => by
    obtain ⟨c, ds, hds, hspace, -⟩ := exists_chars_number (n := n)
    rw [chars]
    refine .number (by simpa [Plain] using h) hrest ?_
    rw [hds]
    exact skipSpace_cons _ hspace
  | .string text, h, rest, _ => by
    obtain ⟨s, rfl⟩ : ∃ s, text = some s := Option.isSome_iff_exists.mp (by simpa [Plain] using h)
    rw [chars]
    exact .text (skipSpace_cons _ (by decide))
  | .array [], _, rest, _ => by
    rw [chars, charsOfItems]
    exact .emptyArray (skipSpace_cons _ (by decide)) (skipSpace_cons _ (by decide))
  | .array (item :: items), h, rest, _ => by
    rw [Plain] at h
    rw [chars, List.cons_append, List.append_assoc]
    exact .array (skipSpace_cons _ (by decide)) (spells_charsOfItems (item :: items) h (by simp))
  | .object [], _, rest, _ => by
    rw [chars, charsOfMembers]
    exact .emptyObject (skipSpace_cons _ (by decide)) (skipSpace_cons _ (by decide))
  | .object (member :: members), h, rest, _ => by
    rw [Plain] at h
    rw [chars, List.cons_append, List.append_assoc]
    exact .object (skipSpace_cons _ (by decide))
      (spells_charsOfMembers (member :: members) h (by simp))

/-- So are plain items. -/
theorem spells_charsOfItems : ∀ (items : List Json), PlainItems items → items ≠ [] →
    ∀ {rest : List Char}, SpellsItems items (charsOfItems items ++ ']' :: rest) rest
  | [], _, hne, _ => absurd rfl hne
  | [item], h, _, rest => by
    rw [PlainItems] at h
    rw [charsOfItems]
    exact .last (spells_chars item h.1 (ends_cons (by decide))) (skipSpace_cons _ (by decide))
  | item :: next :: items, h, _, rest => by
    rw [PlainItems] at h
    rw [charsOfItems, List.append_assoc]
    · exact .cons (spells_chars item h.1 (ends_cons (by decide))) (skipSpace_cons _ (by decide))
        (spells_charsOfItems (next :: items) h.2 (by simp))
    · simp

/-- So are plain members. -/
theorem spells_charsOfMembers : ∀ (members : List (Option String × Json)), PlainMembers members →
    members ≠ [] → ∀ {rest : List Char},
      SpellsMembers members (charsOfMembers members ++ '\x7d' :: rest) rest
  | [], _, hne, _ => absurd rfl hne
  | [(name, value)], h, _, rest => by
    rw [PlainMembers] at h
    obtain ⟨s, rfl⟩ : ∃ s, name = some s := Option.isSome_iff_exists.mp h.1
    rw [charsOfMembers, charsOfMember, List.append_assoc]
    exact .last (skipSpace_cons _ (by decide)) (spells_chars value h.2.1 (ends_cons (by decide)))
      (skipSpace_cons _ (by decide))
  | (name, value) :: next :: members, h, _, rest => by
    rw [PlainMembers] at h
    obtain ⟨s, rfl⟩ : ∃ s, name = some s := Option.isSome_iff_exists.mp h.1
    rw [charsOfMembers, charsOfMember, List.append_assoc, List.append_assoc, List.cons_append]
    · exact .cons (skipSpace_cons _ (by decide))
        (spells_chars value h.2.1 (ends_cons (by decide))) (skipSpace_cons _ (by decide))
        (spells_charsOfMembers (next :: members) h.2.2 (by simp))
    · simp

end

/-- The start of a line is white space. -/
theorem skipSpace_newLine (level : Nat) (cs : List Char) :
    skipSpace (newLine level ++ cs) = skipSpace cs := by
  have hspace : ∀ c ∈ newLine level, isSpace c = true := by
    intro c hc
    rcases List.mem_cons.mp hc with rfl | hc
    · rfl
    · rw [List.eq_of_mem_replicate hc]
      rfl
  exact List.dropWhile_append_of_pos hspace

/-- A new line ends a number. -/
theorem ends_newLine (level : Nat) (cs : List Char) : Ends (newLine level ++ cs) :=
  ends_cons (by decide)

mutual

/-- A plain value is spelled by its text over lines, too. -/
theorem spells_spread : ∀ (value : Json), Plain value → ∀ (level : Nat) {rest : List Char},
    Ends rest → Spells value (spread level value ++ rest) rest
  | .null, _, level, rest, _ => by
    rw [spread]
    exact .null (skipSpace_cons _ (by decide))
  | .bool b, _, level, rest, _ => by
    rw [spread]
    exact .bool (by cases b <;> exact skipSpace_cons _ (by decide))
  | .number n, h, level, rest, hrest => by
    obtain ⟨c, ds, hds, hspace, -⟩ := exists_chars_number (n := n)
    rw [spread]
    refine .number (by simpa [Plain] using h) hrest ?_
    rw [hds]
    exact skipSpace_cons _ hspace
  | .string text, h, level, rest, _ => by
    obtain ⟨s, rfl⟩ : ∃ s, text = some s := Option.isSome_iff_exists.mp (by simpa [Plain] using h)
    rw [spread]
    exact .text (skipSpace_cons _ (by decide))
  | .array [], _, level, rest, _ => by
    rw [spread]
    exact .emptyArray (skipSpace_cons _ (by decide)) (skipSpace_cons _ (by decide))
  | .array (item :: items), h, level, rest, _ => by
    rw [Plain] at h
    rw [spread, List.cons_append, List.append_assoc, List.append_assoc]
    · exact .array (skipSpace_cons _ (by decide))
        (spells_spreadItems (item :: items) h (by simp) (level + 1) level)
    · simp
  | .object [], _, level, rest, _ => by
    rw [spread]
    exact .emptyObject (skipSpace_cons _ (by decide)) (skipSpace_cons _ (by decide))
  | .object (member :: members), h, level, rest, _ => by
    rw [Plain] at h
    rw [spread, List.cons_append, List.append_assoc, List.append_assoc]
    · exact .object (skipSpace_cons _ (by decide))
        (spells_spreadMembers (member :: members) h (by simp) (level + 1) level)
    · simp

/-- So are plain items, each on a line of its own. -/
theorem spells_spreadItems : ∀ (items : List Json), PlainItems items → items ≠ [] →
    ∀ (level close : Nat) {rest : List Char},
      SpellsItems items (spreadItems level items ++ (newLine close ++ ([']'] ++ rest))) rest
  | [], _, hne, _, _, _ => absurd rfl hne
  | [item], h, _, level, close, rest => by
    rw [PlainItems] at h
    rw [spreadItems, List.append_assoc]
    have hitem := spells_spread item h.1 level (ends_newLine close ([']'] ++ rest))
    exact .last (hitem.of_skipSpace (skipSpace_newLine _ _)) (skipSpace_newLine _ _)
  | item :: next :: items, h, _, level, close, rest => by
    rw [PlainItems] at h
    rw [spreadItems, List.append_assoc, List.append_assoc]
    · have hbehind : Ends (',' :: (spreadItems level (next :: items) ++
          (newLine close ++ ([']'] ++ rest)))) := ends_cons (by decide)
      have hitem := spells_spread item h.1 level hbehind
      exact .cons (hitem.of_skipSpace (skipSpace_newLine _ _)) (skipSpace_cons _ (by decide))
        (spells_spreadItems (next :: items) h.2 (by simp) level close)
    · simp

/-- So are plain members. -/
theorem spells_spreadMembers : ∀ (members : List (Option String × Json)), PlainMembers members →
    members ≠ [] → ∀ (level close : Nat) {rest : List Char},
      SpellsMembers members
        (spreadMembers level members ++ (newLine close ++ (['\x7d'] ++ rest))) rest
  | [], _, hne, _, _, _ => absurd rfl hne
  | [(name, value)], h, _, level, close, rest => by
    rw [PlainMembers] at h
    obtain ⟨s, rfl⟩ : ∃ s, name = some s := Option.isSome_iff_exists.mp h.1
    rw [spreadMembers, spreadMember, List.append_assoc, List.append_assoc]
    have hvalue := spells_spread value h.2.1 level (ends_newLine close (['\x7d'] ++ rest))
    exact .last ((skipSpace_newLine _ _).trans (skipSpace_cons _ (by decide)))
      (hvalue.of_skipSpace rfl) (skipSpace_newLine _ _)
  | (name, value) :: next :: members, h, _, level, close, rest => by
    rw [PlainMembers] at h
    obtain ⟨s, rfl⟩ : ∃ s, name = some s := Option.isSome_iff_exists.mp h.1
    rw [spreadMembers, spreadMember, List.append_assoc, List.append_assoc, List.append_assoc]
    · have hbehind : Ends (',' :: (spreadMembers level (next :: members) ++
          (newLine close ++ (['\x7d'] ++ rest)))) := ends_cons (by decide)
      have hvalue := spells_spread value h.2.1 level hbehind
      exact .cons ((skipSpace_newLine _ _).trans (skipSpace_cons _ (by decide)))
        (hvalue.of_skipSpace rfl) (skipSpace_cons _ (by decide))
        (spells_spreadMembers (next :: members) h.2.2 (by simp) level close)
    · simp

end

/-- The text of a plain value is read as the value. -/
theorem ofText?_compact {value : Json} (h : Plain value) : ofText? value.compact = some value := by
  have hspells := spells_chars value h ends_nil
  rw [List.append_nil] at hspells
  unfold ofText? compact
  rw [String.toList_ofList]
  exact ofChars?_of_spells hspells rfl

/-- The lines of a plain value are read as the value. -/
theorem ofText?_pretty {value : Json} (h : Plain value) :
    ofText? (value.pretty ++ "\n") = some value := by
  have hspells : Spells value (spread 0 value ++ ['\n']) ['\n'] :=
    spells_spread value h 0 (ends_newLine 0 [])
  unfold ofText? pretty
  rw [String.toList_append, String.toList_ofList]
  exact ofChars?_of_spells hspells rfl

end ReferenceMint.Json
