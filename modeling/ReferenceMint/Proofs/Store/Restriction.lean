import ReferenceMint.Proofs.Store.DatabaseBook

/-!
# A database for one portfolio

A database can be cut down to the rows of one portfolio (`Database.only`). Every statement of a
claim is confined to its portfolio (`Table.Confined`): it does the same where there are no other
rows, and it leaves all other rows as they are. So what a portfolio gets from a database, it gets
from the one that is cut down to it (`SharedDatabase.answer_only`), and calls for other portfolios
make no difference to it (`SharedDatabase.only_answer`).

All of this holds whatever the rows are, as long as they are ordered by portfolio.
-/

namespace ReferenceMint.Store

open Database (column)

namespace Table

variable {table : Table} {row : Row} {portfolio : Int} {letter : String}

/-- The rows of a portfolio all belong to it. -/
theorem ofPortfolio_ofPortfolio (table : Table) (portfolio : Int) :
    Table.ofPortfolio (table.ofPortfolio portfolio) portfolio = table.ofPortfolio portfolio := by
  unfold ofPortfolio
  rw [List.filter_filter]
  simp only [Bool.and_self]

/-- A key is looked up among the rows of its portfolio. -/
theorem index?_ofPortfolio (table : Table) (portfolio : Int) (letter : String) :
    Table.index? (table.ofPortfolio portfolio) portfolio letter =
      table.index? portfolio letter := by
  rw [index?_eq, ofPortfolio_ofPortfolio, ← index?_eq]

/-- So is the row to update. -/
theorem wanted?_ofPortfolio (table : Table) (portfolio : Int) (letter : String)
    (wanted : Option Int) : Table.wanted? (table.ofPortfolio portfolio) portfolio letter wanted =
      table.wanted? portfolio letter wanted := by
  unfold wanted? ofPortfolio
  rw [List.find?_filter]
  congr 1
  funext row
  by_cases howner : row.portfolio = portfolio <;> simp [Row.hasKey, howner]

/-- So is a key that must not be taken. -/
theorem any_hasKey_ofPortfolio (table : Table) (portfolio : Int) (letter : String) :
    (table.ofPortfolio portfolio).any (fun row => row.hasKey portfolio letter) =
      table.any fun row => row.hasKey portfolio letter := by
  unfold ofPortfolio
  rw [List.any_filter]
  congr 1
  funext row
  by_cases howner : row.portfolio = portfolio <;> simp [Row.hasKey, howner]

/-- A row has the same place among those of its portfolio. -/
theorem ofPortfolio_place (h : table.Grouped) (row : Row) :
    (place row table).ofPortfolio row.portfolio = place row (table.ofPortfolio row.portfolio) := by
  induction table with
  | nil => simp [place, ofPortfolio]
  | cons other rest ih =>
    obtain ⟨hbehind, hrest⟩ := List.pairwise_cons.mp h
    have ih := ih hrest
    unfold ofPortfolio at ih ⊢
    by_cases howner : other.portfolio = row.portfolio
    · cases hbefore : row.before other <;> simp [place, hbefore, howner, ih]
    · cases hbefore : row.before other with
      | false => simp [place, hbefore, howner, ih]
      | true =>
        -- From here on all rows belong to later portfolios.
        have hlater : row.portfolio < other.portfolio := by
          rcases Row.before_iff.mp hbefore with hlt | ⟨heq, -⟩
          · exact hlt
          · exact absurd heq.symm howner
        have hnone : rest.filter (fun b => b.portfolio = row.portfolio) = [] := by
          rw [List.filter_eq_nil_iff]
          intro b hb
          have hle := hbehind b hb
          simp only [decide_eq_true_eq]
          omega
        simp [place, hbefore, howner, hnone]

/-! ## Statements -/

/-- A statement concerns the rows of one portfolio. -/
structure Confined {ε : Type} (portfolio : Int) (statement : Table → Except ε Table) : Prop where
  /-- On the rows of the portfolio alone it does what it does to them. -/
  alone : ∀ table : Table, table.Grouped →
    statement (table.ofPortfolio portfolio) =
      (statement table).map fun after => after.ofPortfolio portfolio
  /-- The table stays in order. -/
  grouped : ∀ table after : Table, table.Grouped → statement table = .ok after → after.Grouped
  /-- Other portfolios have the rows that they had. -/
  others : ∀ table after : Table, table.Grouped → statement table = .ok after →
    ∀ owner, owner ≠ portfolio → after.ofPortfolio owner = table.ofPortfolio owner

/-- A statement that fails is confined. -/
theorem Confined.error {ε : Type} (portfolio : Int) (e : ε) :
    Confined portfolio fun _ => (.error e : Except ε Table) :=
  ⟨fun _ _ => rfl, fun _ _ _ h => (nomatch h), fun _ _ _ h => (nomatch h)⟩

/-- So is one that does nothing. -/
theorem Confined.skip (ε : Type) (portfolio : Int) :
    Confined portfolio fun table => (.ok table : Except ε Table) := by
  refine ⟨fun _ _ => rfl, fun table after hgrouped h => ?_, fun table after _ h owner _ => ?_⟩
  · rwa [← Except.ok.inj h]
  · rw [← Except.ok.inj h]

/-- So is one that places a row of the portfolio. -/
theorem Confined.place (ε : Type) (row : Row) :
    Confined row.portfolio fun table => (.ok (Table.place row table) : Except ε Table) := by
  refine ⟨fun table hgrouped => ?_, fun table after hgrouped h => ?_,
    fun table after _ h owner howner => ?_⟩
  · rw [← ofPortfolio_place hgrouped]
    rfl
  · rw [← Except.ok.inj h]
    exact grouped_place hgrouped row
  · rw [← Except.ok.inj h]
    exact ofPortfolio_place_ne howner table

/-- So is one that changes an index of the portfolio. -/
theorem Confined.withIndex (ε : Type) (portfolio : Int) (letter : String) (index : Int) :
    Confined portfolio fun table =>
      (.ok (table.withIndex portfolio letter index) : Except ε Table) := by
  refine ⟨fun table _ => ?_, fun table after hgrouped h => ?_,
    fun table after _ h owner howner => ?_⟩
  · exact congrArg Except.ok (ofPortfolio_withIndex table portfolio letter index portfolio).symm
  · rw [← Except.ok.inj h]
    exact grouped_withIndex hgrouped portfolio letter index
  · rw [← Except.ok.inj h]
    exact ofPortfolio_withIndex_ne howner table letter index

/-- A statement is confined if, whatever the table is, it does what a confined one does, both on the
table and on the rows of the portfolio alone. -/
theorem Confined.of_agrees {ε : Type} {statement : Table → Except ε Table}
    (h : ∀ table : Table, ∃ other, Confined portfolio other ∧ statement table = other table ∧
      statement (table.ofPortfolio portfolio) = other (table.ofPortfolio portfolio)) :
    Confined portfolio statement := by
  refine ⟨fun table hgrouped => ?_, fun table after hgrouped hafter => ?_,
    fun table after hgrouped hafter => ?_⟩
  · obtain ⟨other, hother, hsame, halone⟩ := h table
    rw [hsame, halone, hother.alone table hgrouped]
  · obtain ⟨other, hother, hsame, -⟩ := h table
    exact hother.grouped table after hgrouped (hsame ▸ hafter)
  · obtain ⟨other, hother, hsame, -⟩ := h table
    exact hother.others table after hgrouped (hsame ▸ hafter)

/-- One confined statement after the other is confined. -/
theorem Confined.andThen {ε : Type} {first second : Table → Except ε Table}
    (h : Confined portfolio first) (h' : Confined portfolio second) :
    Confined portfolio fun table => (first table).bind second := by
  have hmiddle : ∀ table after : Table, (first table).bind second = .ok after →
      ∃ middle, first table = .ok middle ∧ second middle = .ok after := by
    intro table after hafter
    cases hfirst : first table with
    | error e => simp [hfirst, Except.bind] at hafter
    | ok middle => exact ⟨middle, rfl, by simpa [hfirst, Except.bind] using hafter⟩
  refine ⟨fun table hgrouped => ?_, fun table after hgrouped hafter => ?_,
    fun table after hgrouped hafter owner howner => ?_⟩
  · rw [h.alone table hgrouped]
    cases hfirst : first table with
    | error e => rfl
    | ok middle => exact h'.alone middle (h.grouped table middle hgrouped hfirst)
  · obtain ⟨middle, hfirst, hsecond⟩ := hmiddle table after hafter
    exact h'.grouped middle after (h.grouped table middle hgrouped hfirst) hsecond
  · obtain ⟨middle, hfirst, hsecond⟩ := hmiddle table after hafter
    have hkept := h'.others middle after (h.grouped table middle hgrouped hfirst) hsecond
    exact (hkept owner howner).trans (h.others table middle hgrouped hfirst owner howner)

end Table

namespace Database

variable {portfolio : PortfolioCode} {db : Database}

/-- Advancing a bucket is confined to its portfolio. -/
theorem confined_advance (portfolio : PortfolioCode) (letter : Letter) (stored : Int)
    (index : UInt32) :
    Table.Confined (column portfolio) fun table => advance table portfolio letter stored index := by
  apply Table.Confined.of_agrees
  intro table
  have halone := Table.wanted?_ofPortfolio table (column portfolio) letter.text (some stored)
  unfold advance Table.update
  rw [halone]
  -- No row is found, or the row that is found is refused or gets the index.
  cases table.wanted? (column portfolio) letter.text (some stored) with
  | none => exact ⟨_, .error _ _, rfl, rfl⟩
  | some row =>
    simp only
    split_ifs
    · exact ⟨_, .error _ _, rfl, rfl⟩
    · exact ⟨_, .error _ _, rfl, rfl⟩
    · exact ⟨_, .withIndex _ _ letter.text index.toNat, rfl, rfl⟩

/-- Opening a bucket is confined to its portfolio. -/
theorem confined_openBucket (portfolio : PortfolioCode) (letter : Letter) (index : UInt32) :
    Table.Confined (column portfolio) fun table => openBucket table portfolio letter index := by
  apply Table.Confined.of_agrees
  intro table
  have halone := Table.any_hasKey_ofPortfolio table (column portfolio) letter.text
  unfold openBucket Table.insert
  simp only [halone]
  split_ifs
  · exact ⟨_, .error _ _, rfl, rfl⟩
  · exact ⟨_, .error _ _, rfl, rfl⟩
  · exact ⟨_, .place _ ⟨column portfolio, letter.text, index.toNat⟩, rfl, rfl⟩

/-- Writing a row of a claim is confined to its portfolio. -/
theorem confined_writeRow (portfolio : PortfolioCode) (letter : Letter) (index : UInt32) :
    Table.Confined (column portfolio) fun table => writeRow table portfolio letter index := by
  apply Table.Confined.of_agrees
  intro table
  have halone := Table.index?_ofPortfolio table (column portfolio) letter.text
  unfold writeRow
  simp only [halone]
  cases table.index? (column portfolio) letter.text with
  | none => exact ⟨_, confined_openBucket portfolio letter index, rfl, rfl⟩
  | some stored =>
    simp only
    cases toIndex "failed to read bucket" stored with
    | error cause => exact ⟨_, .error _ _, rfl, rfl⟩
    | ok n => exact ⟨_, confined_advance portfolio letter stored index, rfl, rfl⟩

/-- So is writing the rows of a claim. -/
theorem confined_writeRows (portfolio : PortfolioCode) (writes : List (Letter × UInt32)) :
    Table.Confined (column portfolio) (writeRows portfolio writes) := by
  induction writes with
  | nil => exact .skip _ _
  | cons write rest ih =>
    obtain ⟨letter, index⟩ := write
    have hcons : writeRows portfolio ((letter, index) :: rest) = fun table =>
        (writeRow table portfolio letter index).bind (writeRows portfolio rest) := by
      funext table
      rw [writeRows]
      cases writeRow table portfolio letter index <;> rfl
    rw [hcons]
    exact (confined_writeRow portfolio letter index).andThen ih

/-! ## Databases -/

/-- The database with the rows of one portfolio alone. -/
def only (db : Database) (portfolio : PortfolioCode) : Database :=
  { db with table := db.table.map fun table => table.ofPortfolio (column portfolio) }

/-- A second cut changes nothing. -/
theorem only_only (db : Database) (portfolio : PortfolioCode) :
    (db.only portfolio).only portfolio = db.only portfolio := by
  unfold only
  cases db.table with
  | none => rfl
  | some table => simp only [Option.map_some, Table.ofPortfolio_ofPortfolio]

/-- The database has its table, and the rows are ordered by portfolio. -/
def InOrder (db : Database) : Prop := ∃ table, db.table = some table ∧ table.Grouped

/-- A portfolio reads its own cursor. -/
theorem active_only (db : Database) (portfolio : PortfolioCode) :
    (db.only portfolio).active portfolio = db.active portfolio := by
  unfold only active
  cases db.table with
  | none => rfl
  | some table => simp only [Option.map_some, Table.ofPortfolio_ofPortfolio]

/-- A portfolio reads its own buckets. -/
theorem buckets_only (db : Database) (portfolio : PortfolioCode) :
    (db.only portfolio).buckets portfolio = db.buckets portfolio := by
  unfold only buckets
  cases db.table with
  | none => rfl
  | some table => simp only [Option.map_some, Table.ofPortfolio_ofPortfolio]

/-- A claim does what it does where there are no other rows, it leaves the database in order, and it
makes no difference to other portfolios. -/
theorem claim_confined (h : db.InOrder) (portfolio : PortfolioCode) (expected : Cursor)
    (capacity : UInt32) :
    (db.only portfolio).claim portfolio expected capacity =
        ((db.claim portfolio expected capacity).1,
          (db.claim portfolio expected capacity).2.only portfolio) ∧
      (db.claim portfolio expected capacity).2.InOrder ∧
      ∀ owner, owner ≠ portfolio →
        (db.claim portfolio expected capacity).2.only owner = db.only owner := by
  unfold claim
  rw [active_only]
  cases db.active portfolio with
  | error failure => exact ⟨rfl, h, fun _ _ => rfl⟩
  | ok active =>
    simp only
    cases plan (active.getD .start) expected capacity with
    | error outcome => exact ⟨rfl, h, fun _ _ => rfl⟩
    | ok c =>
      obtain ⟨table, htable, hgrouped⟩ := h
      have hconfined := confined_writeRows portfolio c.writes
      have halone : writeRows portfolio c.writes ((db.only portfolio).table.getD []) =
          (writeRows portfolio c.writes table).map fun after =>
            after.ofPortfolio (column portfolio) := by
        rw [← hconfined.alone table hgrouped]
        simp only [only, htable, Option.map_some, Option.getD_some]
      simp only [halone, htable, Option.getD_some]
      cases hwrite : writeRows portfolio c.writes table with
      | error stop => cases stop <;> exact ⟨rfl, ⟨table, htable, hgrouped⟩, fun _ _ => rfl⟩
      | ok after =>
        refine ⟨rfl, ⟨after, rfl, hconfined.grouped table after hgrouped hwrite⟩, ?_⟩
        intro owner howner
        have hkept := hconfined.others table after hgrouped hwrite (column owner)
          fun heq => howner (column_injective heq)
        simp only [only, htable, Option.map_some, hkept]

end Database

/-! ## Stores on a database -/

/-- The portfolio that a call is for. -/
def Call.portfolio : Call → PortfolioCode
  | .active portfolio => portfolio
  | .claim portfolio _ _ => portfolio
  | .buckets portfolio => portfolio

namespace SharedDatabase

/-- The database with the rows of one portfolio alone; what is remembered of a table that exists
does not matter. -/
def only (s : SharedDatabase) (portfolio : PortfolioCode) : SharedDatabase :=
  { s with committed := s.committed.only portfolio, memory := .present }

variable {s : SharedDatabase} {c : Call}

/-- A second cut changes nothing. -/
theorem only_only (s : SharedDatabase) (portfolio : PortfolioCode) :
    (s.only portfolio).only portfolio = s.only portfolio := by
  unfold only
  rw [Database.only_only]

/-- A look at the table changes nothing that matters. -/
theorem only_looked (s : SharedDatabase) (portfolio : PortfolioCode) :
    s.looked.only portfolio = s.only portfolio := by
  rw [looked_eq]
  rfl

/-- The database stays in order. -/
theorem inOrder_answer (h : s.committed.InOrder) (c : Call) : (s.answer c).2.committed.InOrder := by
  cases c with
  | active portfolio =>
    show s.looked.committed.InOrder
    rw [looked_eq]
    exact h
  | buckets portfolio =>
    obtain ⟨table, htable, hgrouped⟩ := h
    rw [answer_buckets htable]
    exact ⟨table, htable, hgrouped⟩
  | claim portfolio expected capacity =>
    cases hlocked : s.isLocked with
    | true =>
      rw [answer_claim_of_locked hlocked]
      exact h
    | false =>
      rw [answer_claim_of_unlocked hlocked]
      exact (Database.claim_confined h portfolio expected capacity).2.1

/-- A call does what it does where there are only the rows of its portfolio. -/
theorem answer_only (h : s.committed.InOrder) (c : Call) :
    ((s.only c.portfolio).answer c).1 = (s.answer c).1 ∧
      ((s.only c.portfolio).answer c).2.only c.portfolio = (s.answer c).2.only c.portfolio := by
  cases c with
  | active portfolio =>
    refine ⟨Database.active_only s.committed portfolio, ?_⟩
    show (s.only portfolio).looked.only portfolio = s.looked.only portfolio
    rw [only_looked, only_looked, only_only]
  | buckets portfolio =>
    obtain ⟨table, htable, -⟩ := h
    have hcut : (s.only portfolio).committed.table =
        some (table.ofPortfolio (column portfolio)) := by
      simp only [only, Database.only, htable, Option.map_some]
    show ((s.only portfolio).answer (.buckets portfolio)).1 = _ ∧
      ((s.only portfolio).answer (.buckets portfolio)).2.only portfolio = _
    rw [answer_buckets htable, answer_buckets hcut]
    exact ⟨Database.buckets_only s.committed portfolio, only_only s portfolio⟩
  | claim portfolio expected capacity =>
    show ((s.only portfolio).answer (.claim portfolio expected capacity)).1 = _ ∧
      ((s.only portfolio).answer (.claim portfolio expected capacity)).2.only portfolio = _
    have hsame : (s.only portfolio).isLocked = s.isLocked := rfl
    cases hlocked : s.isLocked with
    | true =>
      rw [answer_claim_of_locked hlocked, answer_claim_of_locked (hsame.trans hlocked)]
      exact ⟨rfl, only_only s portfolio⟩
    | false =>
      rw [answer_claim_of_unlocked hlocked, answer_claim_of_unlocked (hsame.trans hlocked)]
      have hclaim := (Database.claim_confined h portfolio expected capacity).1
      have hcommitted : (s.only portfolio).committed = s.committed.only portfolio := rfl
      rw [hcommitted, hclaim, looked_eq s, looked_eq (s.only portfolio)]
      refine ⟨rfl, ?_⟩
      simp only [only, Database.only_only, Call.portfolio]

/-- A call makes no difference to other portfolios. -/
theorem only_answer (h : s.committed.InOrder) {owner : PortfolioCode} (hc : c.portfolio ≠ owner) :
    (s.answer c).2.only owner = s.only owner := by
  cases c with
  | active portfolio => exact only_looked s owner
  | buckets portfolio =>
    obtain ⟨table, htable, -⟩ := h
    rw [answer_buckets htable]
    rfl
  | claim portfolio expected capacity =>
    cases hlocked : s.isLocked with
    | true => rw [answer_claim_of_locked hlocked]
    | false =>
      have hothers :=
        (Database.claim_confined h portfolio expected capacity).2.2 owner (Ne.symm hc)
      rw [answer_claim_of_unlocked hlocked, looked_eq]
      simp only [only, hothers]

end SharedDatabase

end ReferenceMint.Store
