import ReferenceMint.Proofs.Exchange
import ReferenceMint.Proofs.Store.Rows
import ReferenceMint.Proofs.Store.Table
import ReferenceMint.Store.Database

/-!
# A claim in the table of buckets

The rows of a portfolio in the table are those of its buckets (`Table.Shows`). From such rows the
database reads the buckets and their cursor back (`Database.active_of_shows`,
`Database.buckets_of_shows`). A claim writes one row or two: it advances the last bucket or opens
one behind all, and it may open another one behind that. Afterwards the rows are those of the
buckets with the claim recorded, and other portfolios have theirs as before
(`Database.writeRows_claim`). A portfolio needs a positive number for this, as the rules for columns
have it (`Database.writeRows_of_not_positive`).

The table may also hold rows that no buckets have. Still the cursor that is read from it has an
index of at least one, and claims are planned at it (`Database.one_le_index_of_active`,
`Database.planned_of_claim`).
-/

namespace ReferenceMint

namespace Letter

/-- Letters have the order of their texts. -/
theorem text_lt_iff {a b : Letter} : a.text < b.text ↔ a < b := by
  have hchars : ∀ p q : Fin 26, (Letter.mk p).char < (Letter.mk q).char ↔ p < q := by decide
  rw [String.lt_iff, toList_text, toList_text, List.cons_lt_cons_iff]
  constructor
  · rintro (hlt | ⟨-, hnil⟩)
    · exact (hchars a.position b.position).mp hlt
    · exact absurd hnil (by simp)
  · intro hlt
    exact .inl ((hchars a.position b.position).mpr hlt)

/-- Different letters have different texts. -/
theorem text_injective {a b : Letter} (h : a.text = b.text) : a = b := by
  have hchars := congrArg String.toList h
  rw [toList_text, toList_text] at hchars
  exact char_injective (List.singleton_inj.mp hchars)

/-- The text of a letter keeps the rule for its column. -/
theorem isLetter_text (a : Letter) : Store.Row.isLetter a.text = true := by
  have hall : ∀ p : Fin 26, Store.Row.isLetter (Letter.mk p).text = true := by decide
  exact hall a.position

end Letter

namespace Store

open Database (column)

/-- The row of a bucket. -/
def Row.ofBucket (b : Bucket) : Row := ⟨column b.portfolio, b.letter.text, b.index.toNat⟩

/-- The rows of a portfolio are those of the buckets. -/
def Table.Shows (table : Table) (portfolio : PortfolioCode) (rows : List Bucket) : Prop :=
  table.ofPortfolio (column portfolio) = rows.map Row.ofBucket

/-- The table was rewritten for one portfolio, which now has the given buckets. -/
structure Table.Rewritten (before after : Table) (portfolio : PortfolioCode)
    (rows : List Bucket) : Prop where
  /-- The table is still ordered. -/
  grouped : after.Grouped
  /-- The portfolio has the rows of the buckets. -/
  shows : after.Shows portfolio rows
  /-- Other portfolios have the rows they had. -/
  others : ∀ owner, owner ≠ column portfolio → after.ofPortfolio owner = before.ofPortfolio owner

/-- After two rewritings a portfolio has the buckets of the second. -/
theorem Table.Rewritten.trans {before middle after : Table} {portfolio : PortfolioCode}
    {rows rows' : List Bucket} (h : before.Rewritten middle portfolio rows)
    (h' : middle.Rewritten after portfolio rows') : before.Rewritten after portfolio rows' :=
  ⟨h'.grouped, h'.shows, fun owner howner =>
    (h'.others owner howner).trans (h.others owner howner)⟩

namespace Database

variable {table : Table} {portfolio : PortfolioCode} {rows : List Bucket}

/-- Different portfolios have different numbers in the table. -/
theorem column_injective {a b : PortfolioCode} (h : column a = column b) : a = b := by
  unfold column at h
  exact PortfolioCode.ext_number (by omega)

/-! ## Reading -/

/-- An index in a column is read back. -/
theorem toIndex_toNat (context : String) (n : UInt32) : toIndex context n.toNat = .ok n := by
  have hle := Numeral.le_highest n.toNat_lt
  unfold toIndex
  rw [if_pos (by omega)]
  simp

/-- A letter in a column is read back. -/
theorem toLetter_text (portfolio : PortfolioCode) (a : Letter) :
    toLetter portfolio a.text = .ok a := by
  unfold toLetter
  rw [a.toList_text]
  simp only [Letter.ofChar, a.ofChar?_char]

/-- Reading what was written gives it back, item by item. -/
theorem mapM_map_eq_ok {α β γ ε : Type} {items : List α} {write : α → β} {read : β → Except ε γ}
    {f : α → γ} (h : ∀ a ∈ items, read (write a) = .ok (f a)) :
    (items.map write).mapM read = .ok (items.map f) := by
  induction items with
  | nil => rfl
  | cons a items ih =>
    have hrest := ih fun other hother => h other (by simp [hother])
    rw [List.map_cons, List.mapM_cons, h a (by simp), hrest]
    rfl

/-- The cursor that a row of the portfolio holds. -/
def rowCursor (portfolio : PortfolioCode) (row : Row) : Except Failure Cursor := do
  let index ← toIndex "failed to read active bucket" row.index
  let letter ← toLetter portfolio row.letter
  Cursor.ofIndex letter index

/-- A portfolio without rows has no cursor. -/
theorem active_of_no_row {db : Database} (htable : db.table = some table)
    (hlast : (table.ofPortfolio (column portfolio)).getLast? = none) :
    db.active portfolio = .ok none := by
  unfold active
  simp only [htable, hlast]
  rfl

/-- The cursor is that of the row with the highest letter. -/
theorem active_of_row {db : Database} {row : Row} (htable : db.table = some table)
    (hlast : (table.ofPortfolio (column portfolio)).getLast? = some row) :
    db.active portfolio = (rowCursor portfolio row).map some := by
  unfold active rowCursor
  simp only [htable, hlast, bind, Except.bind]
  cases toIndex "failed to read active bucket" row.index with
  | error failure => rfl
  | ok index =>
    cases toLetter portfolio row.letter with
    | error failure => rfl
    | ok letter =>
      simp only
      cases Cursor.ofIndex letter index <;> rfl

/-- A cursor that a row holds has the letter and the index that are read from it. -/
theorem rowCursor_eq_ok {row : Row} {s : Cursor} (h : rowCursor portfolio row = .ok s) :
    toLetter portfolio row.letter = .ok s.letter ∧
      toIndex "failed to read active bucket" row.index = .ok s.index ∧ 1 ≤ s.index.toNat := by
  unfold rowCursor at h
  simp only [bind, Except.bind] at h
  cases hindex : toIndex "failed to read active bucket" row.index with
  | error failure =>
    rw [hindex] at h
    exact absurd h (by simp)
  | ok index =>
    rw [hindex] at h
    cases hletter : toLetter portfolio row.letter with
    | error failure =>
      rw [hletter] at h
      exact absurd h (by simp)
    | ok letter =>
      rw [hletter] at h
      have hone := Cursor.one_le_index_of_ofIndex h
      simp only [Cursor.ofIndex] at h
      split_ifs at h
      obtain rfl := Except.ok.inj h
      exact ⟨rfl, rfl, hone⟩

/-- The cursor is read from the row of the last bucket. -/
theorem active_of_shows {db : Database} (htable : db.table = some table)
    (hshows : table.Shows portfolio rows) (htidy : Tidy portfolio rows) :
    db.active portfolio = .ok (lastCursor rows) := by
  have hgetLast : (table.ofPortfolio (column portfolio)).getLast? =
      rows.getLast?.map Row.ofBucket := by
    rw [hshows, List.getLast?_map]
  unfold lastCursor
  cases hlast : rows.getLast? with
  | none =>
    rw [hlast] at hgetLast
    exact active_of_no_row htable hgetLast
  | some b =>
    rw [hlast] at hgetLast
    rw [active_of_row htable hgetLast]
    -- An index of zero is no cursor, but there is none among tidy buckets.
    have hcursor : Cursor.ofIndex b.letter b.index = .ok ⟨b.letter, b.index⟩ :=
      htidy.cursor (List.mem_of_getLast? hlast)
    simp only [rowCursor, Row.ofBucket, toIndex_toNat, toLetter_text]
    show (Cursor.ofIndex b.letter b.index).map some = _
    rw [hcursor]
    rfl

/-- The buckets are read from their rows. -/
theorem buckets_of_shows {db : Database} (htable : db.table = some table)
    (hshows : table.Shows portfolio rows) (htidy : Tidy portfolio rows) :
    db.buckets portfolio = .ok rows := by
  have hpairs : (rows.map Row.ofBucket).mapM (fun row => do
      return (row.letter, ← toIndex "failed to read buckets" row.index)) =
        .ok (rows.map fun b => (b.letter.text, b.index)) := by
    apply mapM_map_eq_ok
    intro b hb
    simp only [Row.ofBucket, toIndex_toNat]
    rfl
  unfold buckets
  rw [htable]
  simp only
  rw [hshows, hpairs]
  refine (mapM_map_eq_ok (f := id) fun b hb => ?_).trans (by rw [List.map_id])
  simp only [toLetter_text]
  rw [← htidy.owned b hb]
  rfl

/-! ## Writing -/

/-- The index under a letter is that of the bucket with the letter. -/
theorem index?_of_shows (h : table.Shows portfolio rows) (letter : Letter) :
    table.index? (column portfolio) letter.text =
      (rows.find? fun b => b.letter = letter).map fun b => (b.index.toNat : Int) := by
  have hkey : ∀ b : Bucket, (b.letter.text = letter.text) = (b.letter = letter) := fun b =>
    propext ⟨Letter.text_injective, congrArg Letter.text⟩
  rw [Table.index?_eq, h, List.find?_map, Option.map_map]
  simp only [Function.comp_def, Row.ofBucket, hkey]

/-- A bucket that has a row is advanced from the index in it. -/
theorem writeRow_of_index? {letter : Letter} {stored : Int} {n index : UInt32}
    (h : table.index? (column portfolio) letter.text = some stored)
    (hread : toIndex "failed to read bucket" stored = .ok n) :
    writeRow table portfolio letter index = advance table portfolio letter stored index := by
  unfold writeRow
  simp only [h, hread]

/-- A bucket is advanced by an update of its row. -/
theorem advance_of_update {letter : Letter} {stored : Int} {index : UInt32} {after : Table}
    (h : table.update (column portfolio) letter.text (some stored) index.toNat true =
      .ok (1, after)) : advance table portfolio letter stored index = .ok after := by
  unfold advance
  rw [h]
  rfl

/-- The last bucket of a portfolio is advanced. -/
theorem writeRow_last {front : List Bucket} {last : Bucket} {index : UInt32}
    (hgrouped : table.Grouped) (hshows : table.Shows portfolio (front ++ [last]))
    (howned : last.portfolio = portfolio) (hfront : ∀ b ∈ front, b.letter ≠ last.letter)
    (hle : last.index.toNat ≤ index.toNat) (hone : 1 ≤ index.toNat) :
    ∃ after, writeRow table portfolio last.letter index = .ok after ∧
      table.Rewritten after portfolio (front ++ [⟨portfolio, last.letter, index⟩]) := by
  have hstored : table.index? (column portfolio) last.letter.text =
      some (last.index.toNat : Int) := by
    have hnone : front.find? (fun b => b.letter = last.letter) = none := by
      simpa using hfront
    rw [index?_of_shows hshows, List.find?_append, hnone]
    simp
  have hupdate : table.update (column portfolio) last.letter.text (some (last.index.toNat : Int))
      index.toNat true = .ok (1, table.withIndex (column portfolio) last.letter.text index.toNat) :=
    Table.update_of_index? hstored (by omega) (by omega)
  refine ⟨table.withIndex (column portfolio) last.letter.text index.toNat, ?_, ?_⟩
  · rw [writeRow_of_index? hstored (toIndex_toNat _ _)]
    exact advance_of_update hupdate
  · refine ⟨Table.grouped_withIndex hgrouped _ _ _, ?_, fun owner howner =>
      Table.ofPortfolio_withIndex_ne howner _ _ _⟩
    unfold Table.Shows
    rw [Table.ofPortfolio_withIndex, hshows, List.map_map, List.map_append, List.map_append]
    -- Only the row of the last bucket has its letter.
    congr 1
    · apply List.map_congr_left
      intro b hb
      have hletter : b.letter.text ≠ last.letter.text := fun heq =>
        hfront b hb (Letter.text_injective heq)
      simp [Row.ofBucket, Row.hasKey, hletter]
    · simp [Row.ofBucket, Row.hasKey, howned]

/-- A bucket behind all others of its portfolio is opened. -/
theorem writeRow_behind {letter : Letter} {index : UInt32} (hpositive : 0 < column portfolio)
    (hgrouped : table.Grouped) (hshows : table.Shows portfolio rows)
    (hbehind : ∀ b ∈ rows, b.letter < letter) (hone : 1 ≤ index.toNat) :
    ∃ after, writeRow table portfolio letter index = .ok after ∧
      table.Rewritten after portfolio (rows ++ [⟨portfolio, letter, index⟩]) := by
  -- There is no row for the letter yet, so the statement inserts one, and the checks and the
  -- trigger let it pass.
  have hne : ∀ b ∈ rows, b.letter ≠ letter := fun b hb => Letter.ne_of_lt (hbehind b hb)
  have hstored : table.index? (column portfolio) letter.text = none := by
    have hnone : rows.find? (fun b => b.letter = letter) = none := by
      simpa using hne
    rw [index?_of_shows hshows, hnone]
    rfl
  let row : Row := .ofBucket ⟨portfolio, letter, index⟩
  have hchecked : row.checked = true := by
    have hindex : (1 : Int) ≤ index.toNat := by omega
    simp [row, Row.ofBucket, Row.checked, hpositive, letter.isLetter_text, hindex]
  have hlast : ∀ other ∈ table.ofPortfolio row.portfolio, other.letter < row.letter := by
    show ∀ other ∈ table.ofPortfolio (column portfolio), other.letter < letter.text
    rw [hshows]
    intro other hother
    obtain ⟨b, hb, rfl⟩ := List.mem_map.mp hother
    exact Letter.text_lt_iff.mpr (hbehind b hb)
  have hinsert : table.insert ⟨column portfolio, letter.text, index.toNat⟩ true =
      .ok (Table.place row table) := Table.insert_of_last hchecked hlast
  refine ⟨Table.place row table, ?_, ?_⟩
  · unfold writeRow openBucket
    simp only [hstored, hinsert]
  · refine ⟨Table.grouped_place hgrouped _, ?_, fun owner howner =>
      Table.ofPortfolio_place_ne howner _⟩
    have hplace : (Table.place row table).ofPortfolio (column portfolio) =
        table.ofPortfolio (column portfolio) ++ [row] := Table.ofPortfolio_place_self hgrouped hlast
    unfold Table.Shows
    rw [hplace, hshows, List.map_append]
    rfl

/-- The rows of a claim make the rows of its portfolio those of the buckets with the claim
recorded. -/
theorem writeRows_claim {c : Claim} (hpositive : 0 < column portfolio) (hgrouped : table.Grouped)
    (hshows : table.Shows portfolio rows) (htidy : Tidy portfolio rows) (htaken : TakenAt rows c) :
    ∃ after, writeRows portfolio c.writes table = .ok after ∧
      table.Rewritten after portfolio (recorded portfolio rows c) := by
  have hbefore : ∀ b ∈ rows.filter (fun b => b.letter < c.letter), b.letter < c.letter := by
    intro b hb
    simpa using (List.mem_filter.mp hb).2
  -- First comes the row of the claimed letter, whether there is one already or not.
  obtain ⟨middle, hfirst, hmiddle⟩ : ∃ middle,
      writeRow table portfolio c.letter (successor c.sequence) = .ok middle ∧
      table.Rewritten middle portfolio ((rows.filter fun b => b.letter < c.letter) ++
        [⟨portfolio, c.letter, successor c.sequence⟩]) := by
    rcases htaken.place with ⟨front, last, rfl, hletter, hindex⟩ | ⟨hbehind, -⟩
    · have hne : ∀ b ∈ front, b.letter ≠ last.letter := fun b hb =>
        Letter.ne_of_lt (lt_last_of_sorted htidy.sorted b hb)
      have hle : last.index.toNat ≤ (successor c.sequence).toNat := by
        rw [hindex]
        exact le_toNat_successor _
      rw [← hletter, filter_lt_last htidy.sorted]
      exact writeRow_last hgrouped hshows (htidy.owned last (by simp)) hne hle
        (one_le_toNat_successor _)
    · rw [List.filter_eq_self.mpr (by simpa using hbehind)]
      exact writeRow_behind hpositive hgrouped hshows hbehind (one_le_toNat_successor _)
  -- Then the claim may open a letter, whose row goes behind that.
  rw [recorded_eq htidy htaken, writtenRows_eq]
  unfold Claim.writes writeRows
  simp only [hfirst]
  cases hnext : c.opened with
  | none => exact ⟨middle, rfl, hmiddle⟩
  | some next =>
    have hbehind : ∀ b ∈ (rows.filter fun b => b.letter < c.letter) ++
        [⟨portfolio, c.letter, successor c.sequence⟩], b.letter < next := by
      have hlt := htaken.opened next hnext
      intro b hb
      rcases List.mem_append.mp hb with hb | hb
      · exact Letter.lt_trans (hbefore b hb) hlt
      · obtain rfl : b = ⟨portfolio, c.letter, successor c.sequence⟩ := by simpa using hb
        exact hlt
    have hone : 1 ≤ (1 : UInt32).toNat := Nat.le_refl 1
    obtain ⟨after, hsecond, hafter⟩ :=
      writeRow_behind hpositive hmiddle.grouped hmiddle.shows hbehind hone
    refine ⟨after, ?_, ?_⟩
    · simp only [Option.map_some, Option.toList_some, writeRows, hsecond]
    · have hrows := hmiddle.trans hafter
      rw [List.append_assoc] at hrows
      exact hrows

/-- The table admits no row of a portfolio without a positive number. -/
theorem writeRows_of_not_positive {c : Claim} (h : ¬ 0 < column portfolio)
    (hshows : table.Shows portfolio []) :
    writeRows portfolio c.writes table =
      .error (.failure (.storageWith "failed to open bucket" Rejection.check.message)) := by
  have hstored : table.index? (column portfolio) c.letter.text = none := by
    rw [index?_of_shows hshows]
    rfl
  have hchecked : (Row.mk (column portfolio) c.letter.text (successor c.sequence).toNat).checked =
      false := by
    simp [Row.checked, h]
  unfold Claim.writes writeRows writeRow openBucket
  simp only [hstored, Table.insert_of_not_checked hchecked]

/-! ## Claims -/

variable {db : Database} {expected : Cursor} {capacity : UInt32}

/-- A claim that is not planned changes nothing. -/
theorem claim_of_plan {outcome : ClaimReply} {active : Option Cursor}
    (hactive : db.active portfolio = .ok active)
    (hplan : plan (active.getD .start) expected capacity = .error outcome) :
    db.claim portfolio expected capacity = (.ok outcome, db) := by
  unfold claim
  simp only [hactive, hplan]

/-- A claim takes effect if its rows are written. -/
theorem claim_of_writeRows {c : Claim} {active : Option Cursor} {after : Table}
    (htable : db.table = some table) (hactive : db.active portfolio = .ok active)
    (hplan : plan (active.getD .start) expected capacity = .ok c)
    (hwrite : writeRows portfolio c.writes table = .ok after) :
    db.claim portfolio expected capacity =
      (.ok (.claimed portfolio c), { db with table := some after }) := by
  unfold claim
  simp only [hactive, hplan, htable, Option.getD_some, hwrite]

/-- A claim fails and changes nothing if its rows cannot be written. -/
theorem claim_of_writeRows_error {c : Claim} {active : Option Cursor} {cause : Failure}
    (htable : db.table = some table) (hactive : db.active portfolio = .ok active)
    (hplan : plan (active.getD .start) expected capacity = .ok c)
    (hwrite : writeRows portfolio c.writes table = .error (.failure cause)) :
    db.claim portfolio expected capacity = (.error cause, db) := by
  unfold claim
  simp only [hactive, hplan, htable, Option.getD_some, hwrite]

/-! ## Any table -/

/-- Whatever the table holds, no cursor with the index zero is read. -/
theorem one_le_index_of_active {active : Option Cursor} (h : db.active portfolio = .ok active) :
    1 ≤ (active.getD .start).index.toNat := by
  cases htable : db.table with
  | none =>
    unfold Database.active at h
    rw [htable] at h
    exact absurd h (by simp [throw, throwThe, MonadExceptOf.throw])
  | some table =>
    cases hlast : (table.ofPortfolio (column portfolio)).getLast? with
    | none =>
      rw [active_of_no_row htable hlast] at h
      rw [← Except.ok.inj h]
      exact Nat.le_refl 1
    | some row =>
      rw [active_of_row htable hlast] at h
      cases hcursor : rowCursor portfolio row with
      | error failure =>
        rw [hcursor] at h
        exact absurd h (by simp [Except.map])
      | ok s =>
        rw [hcursor] at h
        rw [← Except.ok.inj h]
        exact (rowCursor_eq_ok hcursor).2.2

/-- Whatever the table holds, a claim that takes effect was planned at the cursor that is read. -/
theorem planned_of_claim {owner : PortfolioCode} {c : Claim}
    (h : (db.claim portfolio expected capacity).1 = .ok (.claimed owner c)) :
    owner = portfolio ∧ ∃ active, db.active portfolio = .ok active ∧
      plan (active.getD .start) expected capacity = .ok c := by
  unfold claim at h
  cases hactive : db.active portfolio with
  | error failure =>
    simp only [hactive] at h
    exact absurd h (by simp)
  | ok active =>
    simp only [hactive] at h
    cases hplan : plan (active.getD .start) expected capacity with
    | error outcome =>
      simp only [hplan] at h
      have hclaimed := isClaimed_of_plan hplan
      rw [Except.ok.inj h] at hclaimed
      exact absurd hclaimed (by simp [ClaimReply.isClaimed])
    | ok other =>
      simp only [hplan] at h
      split at h
      · exact absurd h (by simp)
      · exact absurd h (by simp)
      · injection Except.ok.inj h with howner hclaim
        exact ⟨howner.symm, active, rfl, hclaim ▸ hplan⟩

end Database

end Store

end ReferenceMint
