import ReferenceMint.Proofs.Grammar
import ReferenceMint.Proofs.Store.Admission
import ReferenceMint.Proofs.Store.DatabaseBook

/-!
# A claim commits whole or not at all

A claim in the database reads the cursor from the row with the highest letter and then writes its
rows one by one. On any table that the guards admit, the row that the claim advances is the one that
was read, and the rows that it opens have letters that no row of the portfolio has
(`Database.ready_of_claim`). So every write finds what it looks for, and the rows of the claim are
written together (`Database.writeRows_of_ready`). The only write that can fail is the first row of a
portfolio without a positive number. A claim that takes no effect is answered in one of the four
ways of `Database.Declined`, and nothing has changed.

`SharedDatabase.claim_writes_all_or_nothing` puts this together. A claim whose caller goes away
before the commit is undone, and changes nothing (`SharedDatabase.abandoned_claim_changes_no_row`).
-/

namespace ReferenceMint.Store

open Database (column)

/-- Failures with different contexts are different. -/
theorem context_inj {context context' detail detail' : String}
    (h : Failure.storageWith context detail = .storageWith context' detail') :
    context = context' := by
  unfold Failure.storageWith at h
  injection h with hmessage hsource
  rw [Option.some.inj hsource] at hmessage
  exact (String.append_left_inj _).mp ((String.append_left_inj _).mp hmessage)

/-- No row has the key of the portfolio and the letter. -/
def Table.Lacks (table : Table) (portfolio : PortfolioCode) (letter : Letter) : Prop :=
  ∀ row ∈ table, row.hasKey (column portfolio) letter.text = false

/-- The table has what the rows of a claim are written over. -/
structure Table.Ready (table : Table) (portfolio : PortfolioCode) (c : Claim) : Prop where
  /-- The bucket of the claimed letter is at the claimed sequence, if there is one. -/
  place : Row.ofBucket ⟨portfolio, c.letter, c.sequence⟩ ∈ table ∨ table.Lacks portfolio c.letter
  /-- A letter that is opened comes after the claimed one and has no bucket. -/
  opened : ∀ next, c.opened = some next → c.letter < next ∧ table.Lacks portfolio next

namespace Database

variable {db : Database} {table : Table} {portfolio : PortfolioCode} {capacity : UInt32}

/-! ## Reading -/

/-- An index that is read is the one in the column. -/
theorem toNat_of_toIndex {context : String} {n : Int} {index : UInt32}
    (h : toIndex context n = .ok index) : n = index.toNat := by
  unfold toIndex at h
  split_ifs at h with hrange
  have hhighest : Numeral.highest 2 32 = 2 ^ 32 - 1 := rfl
  rw [← Except.ok.inj h, UInt32.toNat_ofNat', Nat.mod_eq_of_lt (by omega)]
  omega

/-- A letter that is read is the one in the column. -/
theorem eq_text_of_toLetter {s : String} {letter : Letter} (h : toLetter portfolio s = .ok letter) :
    s = letter.text := by
  unfold toLetter at h
  split at h
  · rename_i c hs
    apply String.toList_injective
    rw [hs, letter.toList_text]
    by_cases hc : IsCapital c
    · obtain ⟨a, rfl⟩ := hc.exists_letter
      simp only [Letter.ofChar, a.ofChar?_char] at h
      rw [Except.ok.inj h]
    · simp only [Letter.ofChar, Letter.ofChar?_of_not_isCapital hc] at h
      exact absurd h (by simp)
  · exact absurd h (by simp)

/-- If a cursor is read, the table has a row for it and none of a higher letter; and if none is
read, the portfolio has no rows. -/
theorem active_of_admitted (htable : db.table = some table) (h : table.Admitted)
    {active : Option Cursor} (hactive : db.active portfolio = .ok active) :
    (active = none ∧ table.ofPortfolio (column portfolio) = []) ∨
    ∃ s, active = some s ∧ Row.ofBucket ⟨portfolio, s.letter, s.index⟩ ∈ table ∧
      ∀ row ∈ table, row.portfolio = column portfolio → row.letter ≤ s.letter.text := by
  cases hlast : (table.ofPortfolio (column portfolio)).getLast? with
  | none =>
    rw [active_of_no_row htable hlast] at hactive
    exact .inl ⟨(Except.ok.inj hactive).symm, List.getLast?_eq_none_iff.mp hlast⟩
  | some row =>
    rw [active_of_row htable hlast] at hactive
    cases hcursor : rowCursor portfolio row with
    | error failure =>
      rw [hcursor] at hactive
      exact absurd hactive (by simp [Except.map])
    | ok s =>
      rw [hcursor] at hactive
      obtain ⟨hletter, hindex, -⟩ := rowCursor_eq_ok hcursor
      obtain ⟨hrow, howner⟩ := Table.mem_ofPortfolio.mp (List.mem_of_getLast? hlast)
      have htext := eq_text_of_toLetter hletter
      refine .inr ⟨s, (Except.ok.inj hactive).symm, ?_, fun other hother hother' => ?_⟩
      · have hbucket : Row.ofBucket ⟨portfolio, s.letter, s.index⟩ = row := by
          unfold Row.ofBucket
          rw [← howner, ← htext, ← toNat_of_toIndex hindex]
        rw [hbucket]
        exact hrow
      · rw [← htext]
        exact h.le_last hlast hother hother'

/-- A letter is not read with a failure that is not one of storage. -/
theorem kind_of_toLetter {s : String} {failure : Failure}
    (h : toLetter portfolio s = .error failure) : failure.kind ≠ .storage := by
  unfold toLetter Letter.ofChar at h
  split at h
  · split at h
    · exact absurd h (by simp)
    · rw [← Except.error.inj h]
      exact nofun
  · rw [← Except.error.inj h]
    exact nofun

/-- No cursor is made of an index with a failure that is not one of storage. -/
theorem kind_of_ofIndex {letter : Letter} {index : UInt32} {failure : Failure}
    (h : Cursor.ofIndex letter index = .error failure) : failure.kind ≠ .storage := by
  unfold Cursor.ofIndex at h
  split_ifs at h
  rw [← Except.error.inj h]
  exact nofun

/-- A row fails to hold a cursor in these words, or with a failure that is not one of storage. -/
theorem rowCursor_eq_error {row : Row} {failure : Failure}
    (h : rowCursor portfolio row = .error failure) :
    (∃ detail, failure = .storageWith "failed to read active bucket" detail) ∨
      failure.kind ≠ .storage := by
  unfold rowCursor at h
  simp only [bind, Except.bind] at h
  cases hindex : toIndex "failed to read active bucket" row.index with
  | error cause =>
    rw [hindex] at h
    obtain rfl := Except.error.inj h
    unfold toIndex at hindex
    split_ifs at hindex
    exact .inl ⟨_, (Except.error.inj hindex).symm⟩
  | ok index =>
    rw [hindex] at h
    cases hletter : toLetter portfolio row.letter with
    | error cause =>
      rw [hletter] at h
      obtain rfl := Except.error.inj h
      exact .inr (kind_of_toLetter hletter)
    | ok letter =>
      rw [hletter] at h
      exact .inr (kind_of_ofIndex h)

/-- Reading the cursor fails in these words, or with a failure that is not one of storage. -/
theorem active_eq_error {failure : Failure} (h : db.active portfolio = .error failure) :
    (∃ detail, failure = .storageWith "failed to read active bucket" detail) ∨
      failure.kind ≠ .storage := by
  cases htable : db.table with
  | none =>
    unfold Database.active at h
    simp only [htable] at h
    exact .inl ⟨_, (Except.error.inj h).symm⟩
  | some table =>
    cases hlast : (table.ofPortfolio (column portfolio)).getLast? with
    | none =>
      rw [active_of_no_row htable hlast] at h
      exact absurd h (by simp)
    | some row =>
      rw [active_of_row htable hlast] at h
      cases hcursor : rowCursor portfolio row with
      | ok s =>
        rw [hcursor] at h
        exact absurd h (by simp [Except.map])
      | error cause =>
        rw [hcursor] at h
        obtain rfl := Except.error.inj h
        exact rowCursor_eq_error hcursor

/-- A letter behind those of all rows has no row. -/
theorem lacks_of_lt {a b : Letter} (h : ∀ row ∈ table, row.portfolio = column portfolio →
    row.letter ≤ a.text) (hlt : a < b) : table.Lacks portfolio b := by
  intro row hrow
  refine Row.not_hasKey fun howner hletter => ?_
  have hle := h row hrow howner
  rw [hletter] at hle
  exact String.not_lt.mpr hle (Letter.text_lt_iff.mpr hlt)

/-- A portfolio without rows has none for a letter. -/
theorem lacks_of_ofPortfolio (h : table.ofPortfolio (column portfolio) = []) (letter : Letter) :
    table.Lacks portfolio letter := by
  intro row hrow
  refine Row.not_hasKey fun howner _ => ?_
  have hmem := Table.mem_ofPortfolio.mpr ⟨hrow, howner⟩
  rw [h] at hmem
  exact absurd hmem (by simp)

/-- The table is ready for a claim at the cursor that is read from it. -/
theorem ready_of_claim (htable : db.table = some table) (h : table.Admitted)
    {active : Option Cursor} (hactive : db.active portfolio = .ok active) {c : Claim}
    (hc : (active.getD .start).claim capacity = some c) : table.Ready portfolio c := by
  have hopened := Cursor.lt_of_claim_opened hc
  rcases active_of_admitted htable h hactive with ⟨-, hnone⟩ | ⟨s, rfl, hrow, hle⟩
  · exact ⟨.inr (lacks_of_ofPortfolio hnone _), fun next hnext =>
      ⟨hopened next hnext, lacks_of_ofPortfolio hnone _⟩⟩
  · rw [Option.getD_some] at hc
    rcases Cursor.claim_cases hc with ⟨-, rfl⟩ | ⟨-, letter, hletter, rfl⟩
    · exact ⟨.inl hrow, fun next hnext =>
        ⟨hopened next hnext, lacks_of_lt hle (hopened next hnext)⟩⟩
    · -- The claim has left the letter of the cursor behind.
      have hlt := Letter.lt_of_next? hletter
      exact ⟨.inr (lacks_of_lt hle hlt), fun next hnext =>
        ⟨hopened next hnext, lacks_of_lt hle (Letter.lt_trans hlt (hopened next hnext))⟩⟩

/-! ## Writing -/

/-- A bucket that has a row is advanced. -/
theorem writeRow_of_mem (h : table.Admitted) {letter : Letter} {stored index : UInt32}
    (hrow : Row.ofBucket ⟨portfolio, letter, stored⟩ ∈ table) (hle : stored.toNat ≤ index.toNat)
    (hone : 1 ≤ index.toNat) : ∃ after, writeRow table portfolio letter index = .ok after ∧
      table.Wrote after [Row.ofBucket ⟨portfolio, letter, index⟩] := by
  have hstored : table.index? (column portfolio) letter.text = some (stored.toNat : Int) :=
    h.index?_of_mem hrow
  have hpositive : 1 ≤ (index.toNat : Int) := by omega
  refine ⟨_, ?_, h.wrote_withIndex hrow hpositive⟩
  rw [writeRow_of_index? hstored (toIndex_toNat _ _)]
  exact advance_of_update (Table.update_of_index? hstored (by omega) (by omega))

/-- A bucket that has no row is opened. -/
theorem writeRow_of_lacks (h : table.Admitted) {letter : Letter} {index : UInt32}
    (hlacks : table.Lacks portfolio letter) (hpositive : 0 < column portfolio)
    (hone : 1 ≤ index.toNat) : ∃ after, writeRow table portfolio letter index = .ok after ∧
      table.Wrote after [Row.ofBucket ⟨portfolio, letter, index⟩] := by
  have hchecked : (Row.ofBucket ⟨portfolio, letter, index⟩).checked = true := by
    have hindex : (1 : Int) ≤ index.toNat := by omega
    simp [Row.ofBucket, Row.checked, hpositive, letter.isLetter_text, hindex]
  have hinsert : table.insert ⟨column portfolio, letter.text, index.toNat⟩ true =
      .ok (Table.place (.ofBucket ⟨portfolio, letter, index⟩) table) :=
    Table.insert_of_new hchecked hlacks
  refine ⟨_, ?_, h.wrote_place hchecked hlacks⟩
  unfold writeRow openBucket
  simp only [Table.index?_eq_none hlacks, hinsert]

/-- The rows of a claim are written where the table is ready for them. -/
theorem writeRows_of_ready (h : table.Admitted) {c : Claim} (hready : table.Ready portfolio c)
    (hpositive : 0 < column portfolio) : ∃ after, writeRows portfolio c.writes table = .ok after ∧
      table.Wrote after ((writtenRows portfolio c).map Row.ofBucket) := by
  have hone := one_le_toNat_successor c.sequence
  obtain ⟨middle, hfirst, hmiddle⟩ : ∃ middle,
      writeRow table portfolio c.letter (successor c.sequence) = .ok middle ∧
      table.Wrote middle [Row.ofBucket ⟨portfolio, c.letter, successor c.sequence⟩] := by
    rcases hready.place with hrow | hlacks
    · exact writeRow_of_mem h hrow (le_toNat_successor _) hone
    · exact writeRow_of_lacks h hlacks hpositive hone
  rw [writtenRows_eq]
  unfold Claim.writes writeRows
  simp only [hfirst]
  cases hnext : c.opened with
  | none => exact ⟨middle, rfl, hmiddle⟩
  | some next =>
    obtain ⟨hlt, hlacks⟩ := hready.opened next hnext
    have hne : (Row.ofBucket ⟨portfolio, c.letter, successor c.sequence⟩).hasKey
        (column portfolio) next.text = false :=
      Row.not_hasKey fun _ hletter => Letter.ne_of_lt hlt (Letter.text_injective hletter)
    -- The first write has left the opened letter without a row.
    have hstill : middle.Lacks portfolio next := by
      intro row hrow
      rcases (hmiddle.mem_iff row).mp hrow with hrow | ⟨hrow, -⟩
      · rw [List.mem_singleton.mp hrow]
        exact hne
      · exact hlacks row hrow
    have hone : 1 ≤ (1 : UInt32).toNat := Nat.le_refl 1
    obtain ⟨after, hsecond, hafter⟩ :=
      writeRow_of_lacks hmiddle.admitted hstill hpositive hone
    refine ⟨after, ?_, hmiddle.trans hafter (List.forall_mem_singleton.mpr hne)⟩
    simp only [Option.map_some, Option.toList_some, writeRows, hsecond]

/-! ## Claims -/

/-- How a claim is answered that takes no effect. -/
inductive Declined (db : Database) (portfolio : PortfolioCode) (expected : Cursor)
    (capacity : UInt32) : Except Failure ClaimReply → Prop
  /-- The cursor cannot be read. -/
  | unreadable {failure : Failure} (active : db.active portfolio = .error failure) :
      Declined db portfolio expected capacity (.error failure)
  /-- The cursor is another one than the caller expects. -/
  | overtaken {current : Cursor} (active : (db.active portfolio).map (·.getD .start) = .ok current)
      (other : current ≠ expected) :
      Declined db portfolio expected capacity (.ok (.conflict (some current)))
  /-- The cursor is the expected one, and there is nothing left to claim. -/
  | exhausted (active : (db.active portfolio).map (·.getD .start) = .ok expected)
      (claim : expected.claim capacity = none) :
      Declined db portfolio expected capacity (.ok (.exhausted expected))
  /-- The portfolio has no positive number, so the table admits no row of it. -/
  | refused (active : db.active portfolio = .ok none) (number : portfolio.number = 0) :
      Declined db portfolio expected capacity
        (.error (.storageWith "failed to open bucket" Rejection.check.message))

/-- A claim that is declined is not a conflict without a cursor. -/
theorem Declined.ne_conflict {expected : Cursor} {reply : Except Failure ClaimReply}
    (h : db.Declined portfolio expected capacity reply) : reply ≠ .ok (.conflict none) := by
  cases h <;> simp

/-- A claim that is declined has not failed to advance a bucket. -/
theorem Declined.ne_advance {expected : Cursor} {reply : Except Failure ClaimReply}
    (h : db.Declined portfolio expected capacity reply) (detail : String) :
    reply ≠ .error (.storageWith "failed to advance bucket" detail) := by
  intro hreply
  cases h with
  | unreadable hactive =>
    rw [Except.error.inj hreply] at hactive
    rcases active_eq_error hactive with ⟨read, hcontext⟩ | hkind
    · exact absurd (context_inj hcontext) (by decide)
    · exact hkind rfl
  | overtaken => exact nomatch hreply
  | exhausted => exact nomatch hreply
  | refused => exact absurd (context_inj (Except.error.inj hreply)) (by decide)

/-- A claim for a portfolio without a positive number is declined when its row is written. -/
theorem claim_of_not_positive {expected : Cursor} (htable : db.table = some table)
    (h : table.Admitted) {active : Option Cursor} (hactive : db.active portfolio = .ok active)
    {c : Claim} (hplan : plan (active.getD .start) expected capacity = .ok c)
    (hpositive : ¬ 0 < column portfolio) :
    db.claim portfolio expected capacity =
        (.error (.storageWith "failed to open bucket" Rejection.check.message), db) ∧
      db.Declined portfolio expected capacity
        (.error (.storageWith "failed to open bucket" Rejection.check.message)) := by
  have hrows : table.Shows portfolio [] := h.ofPortfolio_of_not_positive hpositive
  have hnone : db.active portfolio = .ok none := active_of_shows htable hrows (tidy_nil portfolio)
  have hnumber : portfolio.number = 0 := by
    apply UInt16.toNat_inj.mp
    unfold column at hpositive
    have hzero : (0 : UInt16).toNat = 0 := rfl
    omega
  exact ⟨claim_of_writeRows_error htable hactive hplan (writeRows_of_not_positive hpositive hrows),
    .refused hnone hnumber⟩

/-- A claim on a table that the guards admit writes its rows, or it is declined. -/
theorem claim_of_admitted (htable : db.table = some table) (h : table.Admitted)
    (portfolio : PortfolioCode) (expected : Cursor) (capacity : UInt32) :
    (∃ c after, expected.claim capacity = some c ∧
      db.claim portfolio expected capacity =
        (.ok (.claimed portfolio c), { db with table := some after }) ∧
      table.Wrote after ((writtenRows portfolio c).map Row.ofBucket)) ∨
    ∃ reply, db.claim portfolio expected capacity = (reply, db) ∧
      db.Declined portfolio expected capacity reply := by
  cases hactive : db.active portfolio with
  | error failure =>
    refine .inr ⟨.error failure, ?_, .unreadable hactive⟩
    unfold claim
    simp only [hactive]
  | ok active =>
    have hcurrent : (db.active portfolio).map (·.getD .start) = .ok (active.getD .start) := by
      rw [hactive]
      rfl
    by_cases hexpected : active.getD .start = expected
    · cases hc : expected.claim capacity with
      | none =>
        have hplan : plan (active.getD .start) expected capacity =
            .error (.exhausted expected) := by
          unfold plan
          rw [if_pos hexpected, hexpected]
          simp only [hc]
        exact .inr ⟨_, claim_of_plan hactive hplan, .exhausted (hexpected ▸ hcurrent) hc⟩
      | some c =>
        have hplan : plan (active.getD .start) expected capacity = .ok c := by
          rw [hexpected]
          exact plan_of_claim hc
        by_cases hpositive : 0 < column portfolio
        · obtain ⟨after, hwrite, hafter⟩ :=
            writeRows_of_ready h (ready_of_claim htable h hactive (hexpected ▸ hc)) hpositive
          exact .inl ⟨c, after, rfl, claim_of_writeRows htable hactive hplan hwrite, hafter⟩
        · obtain ⟨hclaim, hdeclined⟩ := claim_of_not_positive htable h hactive hplan hpositive
          exact .inr ⟨_, hclaim, hdeclined⟩
    · have hplan : plan (active.getD .start) expected capacity =
          .error (.conflict (some (active.getD .start))) := if_neg hexpected
      exact .inr ⟨_, claim_of_plan hactive hplan, .overtaken hcurrent hexpected⟩

end Database

namespace SharedDatabase

/-- On any table that the guards admit, for any portfolio, cursor and capacity, a claim without a
competing program writes exactly its rows, or it is declined and the database is as it was. It never
finds that a row to advance has gone or that a row to open is there, and it never lowers an
index. -/
theorem claim_writes_all_or_nothing {s : SharedDatabase} {table : Table}
    (hunlocked : s.isLocked = false) (htable : s.committed.table = some table)
    (hadmitted : table.Admitted) (portfolio : PortfolioCode) (expected : Cursor)
    (capacity : UInt32) :
    let reply := (s.answer (.claim portfolio expected capacity)).1
    let committed := (s.answer (.claim portfolio expected capacity)).2.committed
    ((∃ c after, reply = .ok (.claimed portfolio c) ∧ expected.claim capacity = some c ∧
        committed = { s.committed with table := some after } ∧
        table.Wrote after ((writtenRows portfolio c).map Row.ofBucket)) ∨
      (s.committed.Declined portfolio expected capacity reply ∧ committed = s.committed)) ∧
    reply ≠ .ok (.conflict none) ∧
    ∀ detail, reply ≠ .error (.storageWith "failed to advance bucket" detail) := by
  intro reply committed
  have hanswer := answer_claim_of_unlocked hunlocked portfolio expected capacity
  have hreply : reply = (s.committed.claim portfolio expected capacity).1 :=
    congrArg Prod.fst hanswer
  have hcommitted : committed = (s.committed.claim portfolio expected capacity).2 :=
    congrArg (fun answer => answer.2.committed) hanswer
  rw [hreply, hcommitted]
  rcases Database.claim_of_admitted htable hadmitted portfolio expected capacity with
    ⟨c, after, hclaim, hresult, hafter⟩ | ⟨declined, hresult, hdeclined⟩
  · rw [hresult]
    exact ⟨.inl ⟨c, after, rfl, hclaim, rfl, hafter⟩, nofun, nofun⟩
  · rw [hresult]
    exact ⟨.inr ⟨hdeclined, rfl⟩, hdeclined.ne_conflict, hdeclined.ne_advance⟩

/-- A table whose portfolio 7 has left out a letter, next to one with an index that no sequence
reaches. -/
def gappyTable : Table := [⟨7, "A", 10⟩, ⟨7, "C", 3⟩, ⟨9, "B", 4294967296⟩]

/-- With three sequences under a letter, a claim for portfolio 7 fills `C` and opens `D`. -/
theorem claim_writes_all_or_nothing_gappy :
    let s := ofDatabase ⟨Database.currentVersion, some gappyTable⟩
    let c : Claim := ⟨⟨2⟩, 3, .opens ⟨3⟩⟩
    let after : Table := [⟨7, "A", 10⟩, ⟨7, "C", 4⟩, ⟨7, "D", 1⟩, ⟨9, "B", 4294967296⟩]
    s.isLocked = false ∧ gappyTable.Admitted ∧ (Cursor.mk ⟨2⟩ 3).claim 3 = some c ∧
    (s.answer (.claim ⟨7⟩ ⟨⟨2⟩, 3⟩ 3)).1 = .ok (.claimed ⟨7⟩ c) ∧
    (s.answer (.claim ⟨7⟩ ⟨⟨2⟩, 3⟩ 3)).2.committed = { s.committed with table := some after } ∧
    gappyTable.Wrote after [⟨7, "C", 4⟩, ⟨7, "D", 1⟩] := by
  intro s c after
  have hadmitted : gappyTable.Admitted := ⟨by decide, by decide⟩
  have hreply : (s.answer (.claim ⟨7⟩ ⟨⟨2⟩, 3⟩ 3)).1 = .ok (.claimed ⟨7⟩ c) := rfl
  have hcommitted : (s.answer (.claim ⟨7⟩ ⟨⟨2⟩, 3⟩ 3)).2.committed =
      { s.committed with table := some after } := by decide
  refine ⟨rfl, hadmitted, rfl, hreply, hcommitted, ?_⟩
  rcases (claim_writes_all_or_nothing (s := s) rfl rfl hadmitted ⟨7⟩ ⟨⟨2⟩, 3⟩ 3).1 with
    ⟨other, rows, hclaimed, -, hrows, hwrote⟩ | ⟨hdeclined, -⟩
  · obtain rfl : c = other :=
      (ClaimReply.claimed.inj (Except.ok.inj (hreply.symm.trans hclaimed))).2
    obtain rfl : after = rows :=
      Option.some.inj (congrArg Database.table (hcommitted.symm.trans hrows))
    exact hwrote
  · rw [hreply] at hdeclined
    exact nomatch hdeclined

/-- A claim whose caller goes away changes no row: whatever the table holds, the database is as the
other program has left it. -/
theorem abandoned_claim_changes_no_row (s : SharedDatabase) (portfolio : PortfolioCode)
    (capacity : UInt32) :
    (s.abandon portfolio capacity).2.committed = s.seenByOther ∧
      (s.abandon portfolio capacity).2.isLocked = false := by
  have hafter : (s.abandon portfolio capacity).2 = s.unlock.looked := rfl
  rw [hafter, looked_eq]
  exact ⟨rfl, rfl⟩

/-- Such a claim leaves its event exactly if it took effect in the transaction that is undone. -/
theorem rollingBack_mem_abandon_iff (s : SharedDatabase) (portfolio : PortfolioCode)
    (capacity : UInt32) : rollingBack portfolio ∈ (s.abandon portfolio capacity).1 ↔
      ∃ active reply, s.seenByOther.active portfolio = .ok active ∧
        (s.seenByOther.claim portfolio (active.getD .start) capacity).1 = .ok reply ∧
        reply.isClaimed = true := by
  have hunlock : s.unlock.committed = s.seenByOther := rfl
  cases hactive : s.seenByOther.active portfolio with
  | error failure => simp [abandon, hunlock, hactive]
  | ok active =>
    cases hclaim : (s.seenByOther.claim portfolio (active.getD .start) capacity).1 with
    | error failure => simp [abandon, hunlock, hactive, hclaim]
    | ok reply => simp [abandon, hunlock, hactive, hclaim]

end SharedDatabase

end ReferenceMint.Store
