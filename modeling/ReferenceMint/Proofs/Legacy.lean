import Mathlib.Tactic.Common
import ReferenceMint.Legacy
import ReferenceMint.Proofs.Text.Blank

/-!
# Files of legacy records

A file of records is read line by line. All follows from one equation: two texts with a line feed in
between are read one after the other, and the lines of the second are numbered after those of the
first (`LegacyRecord.readAll_append`). For this it makes no difference that the lines of a text are
not quite the pieces between its line feeds (`LegacyRecord.readAll_eq`): the rest of a line end is
white space, and an empty piece is skipped.

Reading undoes writing (`LegacyRecord.readAll_written`). A record stands on a line of its own, among
lines that are skipped (`Entry`), and each line but the last ends in one of two ways (`Ending`).
-/

namespace ReferenceMint

/-- An error with more lines in front. -/
def MissingId.after (lines : Nat) (e : MissingId) : MissingId := ⟨e.line + lines⟩

namespace LegacyRecord

open Text (trim isBlank)

/-! ## One line after the other -/

section Lines

/-- White space behind a line does not count. -/
theorem readLine_append_blank (line : List Char) {bs : List Char}
    (h : ∀ b ∈ bs, isBlank b = true) : readLine (line ++ bs) = readLine line := by
  unfold readLine
  rw [Text.trim_append_blank h]

/-- A carriage return at the end of a line does not count. -/
theorem readLine_dropReturn (line : List Char) :
    readLine (Text.dropReturn line) = readLine line := by
  have hreturn : ∀ c ∈ ['\r'], isBlank c = true := List.all_eq_true.mp (by decide)
  rcases Text.eq_dropReturn line with heq | heq
  · rw [← heq]
  · conv_rhs => rw [heq]
    exact (readLine_append_blank _ hreturn).symm

/-- Carriage returns at the ends of lines do not count. -/
theorem readLines_map_dropReturn (n : Nat) (lines : List (List Char)) :
    readLines n (lines.map Text.dropReturn) = readLines n lines := by
  induction lines generalizing n with
  | nil => rfl
  | cons line rest ih =>
    rw [List.map_cons, readLines, readLines, readLine_dropReturn, ih]

/-- Lines with other lines behind them are read first. -/
theorem readLines_append (n : Nat) (lines rest : List (List Char)) :
    readLines n (lines ++ rest) = do
      let before ← readLines n lines
      let behind ← readLines (n + lines.length) rest
      return before ++ behind := by
  induction lines generalizing n with
  | nil =>
    show readLines n rest = (readLines n rest >>= fun behind => .ok behind)
    cases readLines n rest <;> rfl
  | cons line lines ih =>
    have hnumber : n + 1 + lines.length = n + (line :: lines).length := by
      rw [List.length_cons]
      omega
    rw [List.cons_append, readLines, readLines, ih, hnumber]
    cases readLine line with
    | skipped => rfl
    | missingId => rfl
    | record r =>
      cases readLines (n + 1) lines with
      | error e => rfl
      | ok before =>
        cases readLines (n + (line :: lines).length) rest with
        | error e => rfl
        | ok behind => rfl

/-- Where lines are counted from shows in errors alone. -/
theorem readLines_add (n k : Nat) (lines : List (List Char)) :
    readLines (n + k) lines = (readLines n lines).mapError (MissingId.after k) := by
  induction lines generalizing n with
  | nil => rfl
  | cons line rest ih =>
    rw [readLines, readLines, Nat.add_right_comm, ih]
    cases readLine line with
    | skipped => rfl
    | missingId => rfl
    | record r =>
      cases readLines (n + 1) rest with
      | error e => rfl
      | ok records => rfl

/-- An empty line at the end is skipped. -/
theorem readLines_append_nil (n : Nat) (lines : List (List Char)) :
    readLines n (lines ++ [[]]) = readLines n lines := by
  rw [readLines_append]
  show (readLines n lines >>= fun before => .ok (before ++ [])) = _
  simp only [List.append_nil]
  cases readLines n lines <;> rfl

end Lines

/-! ## One text after the other -/

/-- A text is read as the pieces between its line feeds. -/
theorem readAll_eq (text : String) : readAll text = readLines 1 (text.toList.splitOn '\n') := by
  rcases List.eq_nil_or_concat' (text.toList.splitOn '\n') with hnil | ⟨complete, rest, hpieces⟩
  · exact absurd hnil (List.splitOn_ne_nil '\n' text.toList)
  · unfold readAll
    rw [Text.lines_of_splitOn hpieces, hpieces, readLines_append, readLines_map_dropReturn,
      List.length_map, ← readLines_append]
    cases rest with
    | nil =>
      show readLines 1 (complete ++ []) = _
      rw [List.append_nil, readLines_append_nil]
    | cons c cs => rfl

/-- Texts with a line feed in between are read one after the other. -/
theorem readAll_append (x y : String) :
    readAll (x ++ "\n" ++ y) = do
      let before ← readAll x
      let behind ← (readAll y).mapError (MissingId.after (1 + x.toList.count '\n'))
      return before ++ behind := by
  have hpieces : (x ++ "\n" ++ y).toList.splitOn '\n' =
      x.toList.splitOn '\n' ++ y.toList.splitOn '\n' := by
    rw [String.toList_append, String.toList_append, List.append_assoc]
    exact List.splitOn_append_cons_self ..
  have hlength : 1 + (x.toList.splitOn '\n').length = 1 + (1 + x.toList.count '\n') := by
    rw [Text.length_splitOn]
    omega
  rw [readAll_eq, readAll_eq, readAll_eq, hpieces, readLines_append, hlength, readLines_add]

/-- A text without line feeds is one line. -/
theorem readAll_line {line : List Char} (h : '\n' ∉ line) :
    readAll (String.ofList line) = readLines 1 [line] := by
  rw [readAll_eq, String.toList_ofList, List.splitOn_eq_singleton h]

/-! ## Writing -/

/-- A part of a line that is read as it stands. -/
structure IsPart (s : String) : Prop where
  ne_empty : s ≠ ""
  /-- There is no white space at its ends. -/
  trimmed : trim s.toList = s.toList
  /-- It is on one line. -/
  no_feed : '\n' ∉ s.toList

/-- A record that can be written on a line. -/
structure Writable (r : LegacyRecord) : Prop where
  id : IsPart r.id
  /-- The first comma is behind the identifier. -/
  no_comma : ',' ∉ r.id.toList
  /-- The line is not taken for a comment. -/
  no_sign : r.id.toList.head? ≠ some '#'
  reference : ∀ text ∈ r.reference, IsPart text

/-- The characters of the line with a record. -/
def chars (r : LegacyRecord) : List Char :=
  match r.reference with
  | none => r.id.toList
  | some text => r.id.toList ++ ',' :: text.toList

/-- A line that is skipped. -/
inductive Skipped : List Char → Prop where
  | blank {line : List Char} (h : ∀ c ∈ line, isBlank c = true) : Skipped line
  /-- It starts with a number sign, behind white space if there is any. -/
  | comment {bs : List Char} (h : ∀ b ∈ bs, isBlank b = true) (rest : List Char) :
    Skipped (bs ++ '#' :: rest)

/-- What is on a line. -/
inductive Entry where
  | record (r : LegacyRecord)
  | other (line : List Char)

/-- The characters of a line. -/
def Entry.chars : Entry → List Char
  | .record r => r.chars
  | .other line => line

/-- The record on a line. -/
def Entry.record? : Entry → Option LegacyRecord
  | .record r => some r
  | .other _ => none

/-- A line has a record that can be written, or is skipped. -/
def Entry.Proper : Entry → Prop
  | .record r => r.Writable
  | .other line => Skipped line ∧ '\n' ∉ line

/-- How a line ends. -/
inductive Ending where
  | lineFeed
  | returnAndLineFeed

/-- What is in front of the line feed. -/
def Ending.front : Ending → List Char
  | .lineFeed => []
  | .returnAndLineFeed => ['\r']

/-- Lines with their ends in between. -/
def written : Entry → List (Ending × Entry) → List Char
  | first, [] => first.chars
  | first, (ending, next) :: rest => first.chars ++ ending.front ++ '\n' :: written next rest

section Writing

variable {r : LegacyRecord}

/-- A part is not empty. -/
theorem IsPart.ne_nil {s : String} (h : IsPart s) : s.toList ≠ [] := fun hnil =>
  h.ne_empty (String.toList_eq_nil_iff.mp hnil)

/-- A written record has no white space at its ends. -/
theorem Writable.trim_chars (h : r.Writable) : trim r.chars = r.chars := by
  obtain ⟨hhead, -⟩ := Text.ends_of_trim_eq h.id.trimmed
  unfold chars
  cases href : r.reference with
  | none => exact h.id.trimmed
  | some text =>
    obtain ⟨-, hlast⟩ := Text.ends_of_trim_eq (h.reference text href).trimmed
    refine Text.trim_eq_self (fun c hc => hhead c ?_) fun c hc => hlast c ?_
    · rwa [List.head?_append_of_ne_nil _ h.id.ne_nil] at hc
    · have hne := (h.reference text href).ne_nil
      rw [List.getLast?_append_of_ne_nil _ (List.cons_ne_nil _ _), List.getLast?_cons] at hc
      rw [List.getLast?_eq_some_getLast hne] at hc ⊢
      exact hc

/-- A written record is on one line. -/
theorem Writable.no_feed_chars (h : r.Writable) : '\n' ∉ r.chars := by
  unfold chars
  cases href : r.reference with
  | none => exact h.id.no_feed
  | some text =>
    simp [h.id.no_feed, (h.reference text href).no_feed]

/-- A line with a record is not skipped. -/
theorem readLine_of_ne_skipped {line : List Char} (hne : trim line ≠ [])
    (hsign : (trim line).head? ≠ some '#') :
    readLine line = match Text.cutAt ',' (trim line) with
      | some (id, reference) => ofParts (trim id) (trim reference)
      | none => ofParts (trim line) [] := by
  unfold readLine
  split
  · next hnil => exact absurd hnil hne
  · next rest hcons => exact absurd (congrArg List.head? hcons) hsign
  · rfl

/-- A written record is read back. -/
theorem readLine_chars (h : r.Writable) : readLine r.chars = .record r := by
  have hstart : ∃ c cs, r.id.toList = c :: cs := List.exists_cons_of_ne_nil h.id.ne_nil
  obtain ⟨c, cs, hid⟩ := hstart
  have hhead : r.chars.head? = some c := by
    unfold chars
    cases r.reference <;> simp [hid]
  have hne : trim r.chars ≠ [] := by
    rw [h.trim_chars]
    exact fun hnil => by simp [hnil] at hhead
  have hsign : (trim r.chars).head? ≠ some '#' := by
    rw [h.trim_chars, hhead, ← List.head?_cons (l := cs), ← hid]
    exact h.no_sign
  rw [readLine_of_ne_skipped hne hsign, h.trim_chars]
  obtain ⟨id, reference⟩ := r
  cases reference with
  | none =>
    show (match Text.cutAt ',' id.toList with
      | some (id, reference) => ofParts (trim id) (trim reference)
      | none => ofParts id.toList []) = _
    rw [Text.cutAt_eq_none h.no_comma]
    show ofParts id.toList [] = _
    unfold ofParts
    rw [if_neg (by simpa using h.id.ne_nil)]
    simp
  | some text =>
    have htext := h.reference text rfl
    show (match Text.cutAt ',' (id.toList ++ ',' :: text.toList) with
      | some (id, reference) => ofParts (trim id) (trim reference)
      | none => ofParts (id.toList ++ ',' :: text.toList) []) = _
    rw [Text.cutAt_append_cons h.no_comma]
    show ofParts (trim id.toList) (trim text.toList) = _
    rw [h.id.trimmed, htext.trimmed]
    unfold ofParts
    rw [if_neg (by simpa using h.id.ne_nil), if_neg (by simpa using htext.ne_nil)]
    simp

/-- A skipped line is skipped. -/
theorem readLine_of_skipped {line : List Char} (h : Skipped line) : readLine line = .skipped := by
  unfold readLine
  cases h with
  | blank hall =>
    rw [Text.trim_eq_nil_iff.mpr hall]
  | comment hbs rest =>
    rw [Text.trim_blank_append _ hbs, Text.trim_cons rest (by decide)]
    rfl

/-- A proper line gives its record, whatever white space stands behind it. -/
theorem readLines_chars {entry : Entry} (h : entry.Proper) {bs : List Char}
    (hbs : ∀ b ∈ bs, isBlank b = true) (n : Nat) :
    readLines n [entry.chars ++ bs] = .ok entry.record?.toList := by
  rw [readLines, readLine_append_blank _ hbs]
  cases entry with
  | record r =>
    rw [Entry.chars, readLine_chars h]
    rfl
  | other line =>
    rw [Entry.chars, readLine_of_skipped h.1]
    rfl

/-- A proper line is one line. -/
theorem no_feed_of_proper {entry : Entry} (h : entry.Proper) (ending : Ending) :
    '\n' ∉ entry.chars ++ ending.front := by
  rw [List.mem_append, not_or]
  constructor
  · cases entry with
    | record r => exact Writable.no_feed_chars h
    | other line => exact h.2
  · cases ending <;> decide

/-- A proper line is read as its record, whichever way it ends. -/
theorem readAll_chars {entry : Entry} (h : entry.Proper) (ending : Ending) :
    readAll (String.ofList (entry.chars ++ ending.front)) = .ok entry.record?.toList := by
  have hfront : ∀ b ∈ ending.front, isBlank b = true := by
    cases ending <;> exact List.all_eq_true.mp (by decide)
  rw [readAll_line (no_feed_of_proper h ending), readLines_chars h hfront]

/-- Of written lines the records are read back. -/
theorem readAll_written {first : Entry} {rest : List (Ending × Entry)}
    (h : ∀ entry ∈ first :: rest.map Prod.snd, entry.Proper) :
    readAll (String.ofList (written first rest)) =
      .ok ((first :: rest.map Prod.snd).filterMap Entry.record?) := by
  induction rest generalizing first with
  | nil =>
    have hchars := readAll_chars (h first List.mem_cons_self) .lineFeed
    rw [Ending.front, List.append_nil] at hchars
    rw [written, hchars]
    cases first <;> rfl
  | cons line rest ih =>
    obtain ⟨ending, next⟩ := line
    have hproper : ∀ entry ∈ next :: rest.map Prod.snd, entry.Proper := fun entry hentry =>
      h entry (List.mem_cons_of_mem _ hentry)
    have hjoined : String.ofList (written first ((ending, next) :: rest)) =
        String.ofList (first.chars ++ ending.front) ++ "\n" ++
          String.ofList (written next rest) := by
      rw [← String.toList_inj]
      simp [written]
    rw [hjoined, readAll_append, ih hproper, readAll_chars (h first List.mem_cons_self) ending]
    cases first <;> rfl

end Writing

end LegacyRecord

open LegacyRecord (readAll written Entry Ending) in
/-- Files of records are read as they were written, and line by line. -/
theorem legacy_files_are_read_back_line_by_line :
    (∀ (first : Entry) (rest : List (Ending × Entry)),
      (∀ entry ∈ first :: rest.map Prod.snd, entry.Proper) →
      readAll (String.ofList (written first rest)) =
        .ok ((first :: rest.map Prod.snd).filterMap Entry.record?)) ∧
    ∀ x y : String, readAll (x ++ "\n" ++ y) = do
      let before ← readAll x
      let behind ← (readAll y).mapError (MissingId.after (1 + x.toList.count '\n'))
      return before ++ behind :=
  ⟨fun _ _ h => LegacyRecord.readAll_written h, LegacyRecord.readAll_append⟩

open LegacyRecord (readAll Entry) in
/-- A comment, a line of white space and an empty one stand between two records, the second of which
has a carriage return in its identifier and a comma in its reference. -/
theorem legacy_files_are_read_back_with_comments :
    readAll "# id,reference\npay-1\r\n\u3000\npay\r2,1A, 2\r\n" =
      .ok [⟨"pay-1", none⟩, ⟨"pay\r2", some "1A, 2"⟩] := by
  have hfirst : LegacyRecord.Writable ⟨"pay-1", none⟩ :=
    ⟨⟨by decide, by decide, by decide⟩, by decide, by decide, fun _ => nofun⟩
  have hsecond : LegacyRecord.Writable ⟨"pay\r2", some "1A, 2"⟩ := by
    refine ⟨⟨by decide, by decide, by decide⟩, by decide, by decide, fun text htext => ?_⟩
    obtain rfl : "1A, 2" = text := Option.some.inj htext
    exact ⟨by decide, by decide, by decide⟩
  have hcomment : LegacyRecord.Skipped "# id,reference".toList :=
    @LegacyRecord.Skipped.comment [] (List.all_eq_true.mp (by decide)) " id,reference".toList
  have hproper : ∀ entry ∈ [Entry.other "# id,reference".toList, .record ⟨"pay-1", none⟩,
      .other ['\u3000'], .record ⟨"pay\r2", some "1A, 2"⟩, .other []], entry.Proper := by
    simp only [List.forall_mem_cons]
    exact ⟨⟨hcomment, by decide⟩, hfirst,
      ⟨.blank (List.all_eq_true.mp (by decide)), by decide⟩, hsecond,
      ⟨.blank (List.all_eq_true.mp (by decide)), by decide⟩, by simp⟩
  have hread := legacy_files_are_read_back_line_by_line.1 _
    [(.lineFeed, .record ⟨"pay-1", none⟩), (.returnAndLineFeed, .other ['\u3000']),
      (.lineFeed, .record ⟨"pay\r2", some "1A, 2"⟩), (.returnAndLineFeed, .other [])] hproper
  rwa [show LegacyRecord.written _ _ =
    "# id,reference\npay-1\r\n\u3000\npay\r2,1A, 2\r\n".toList from by decide,
    String.ofList_toList] at hread

end ReferenceMint
