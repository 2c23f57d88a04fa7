import ReferenceMint.Proofs.Store.Book
import ReferenceMint.Proofs.Store.Database
import ReferenceMint.Store.SharedDatabase

/-!
# A bucket store on a database follows the book

A database that nobody else uses has the buckets of the book in its table (`SharedDatabase.Keeps`).
Every call has the reply of the book and leads to the table of the book after it
(`SharedDatabase.Keeps.answer`), except for a claim that would take effect for a portfolio without a
positive number. Such a claim fails and changes nothing (`SharedDatabase.Keeps.refuses`).
-/

namespace ReferenceMint.Store

open Database (column)

/-- The table has the rows of the book. -/
structure Table.Holds (table : Table) (b : Book) : Prop where
  /-- The rows are ordered by portfolio. -/
  grouped : table.Grouped
  /-- Each portfolio has the rows of its buckets. -/
  shows : ∀ portfolio, table.Shows portfolio (b.rows portfolio)
  /-- A portfolio without a positive number has no buckets. -/
  unnumbered : ∀ portfolio, ¬ 0 < column portfolio → b.rows portfolio = []

/-- A claim is for a portfolio with a positive number. -/
def Call.IsNumbered : Call → Prop
  | .claim portfolio _ _ => 0 < column portfolio
  | _ => True

instance : (c : Call) → Decidable c.IsNumbered
  | .claim portfolio _ _ => inferInstanceAs (Decidable (0 < column portfolio))
  | .active _ => inferInstanceAs (Decidable True)
  | .buckets _ => inferInstanceAs (Decidable True)

/-- A table without rows has those of the empty book. -/
theorem Table.holds_empty : Table.Holds [] .empty :=
  ⟨List.Pairwise.nil, fun _ => rfl, fun _ _ => rfl⟩

/-- A table that was rewritten for a claim has the rows of the book with the claim. -/
theorem Table.Holds.record {table after : Table} {b : Book} {portfolio : PortfolioCode} {c : Claim}
    (h : table.Holds b) (hpositive : 0 < column portfolio)
    (hafter : table.Rewritten after portfolio (recorded portfolio (b.rows portfolio) c)) :
    after.Holds (b.record portfolio c) := by
  refine ⟨hafter.grouped, fun other => ?_, fun other hother => ?_⟩
  · by_cases hother : other = portfolio
    · subst hother
      rw [Book.rows_record_self]
      exact hafter.shows
    · have hcolumn : column other ≠ column portfolio := fun heq =>
        hother (Database.column_injective heq)
      rw [Book.rows_record_ne _ _ hother]
      exact (hafter.others _ hcolumn).trans (h.shows other)
  · have hne : other ≠ portfolio := fun heq => hother (heq ▸ hpositive)
    rw [Book.rows_record_ne _ _ hne]
    exact h.unnumbered other hother

namespace SharedDatabase

/-- A new database, as the store has it that has opened it. -/
def fresh : SharedDatabase := ⟨⟨Database.currentVersion, some []⟩, none, .present⟩

example : (ofDatabase .empty).opened.2 = .ok fresh := rfl

/-- Nobody else uses the database, and its table has the rows of the book. -/
def Keeps (s : SharedDatabase) (b : Book) : Prop :=
  s.pending = none ∧ ∃ table, s.committed.table = some table ∧ table.Holds b

variable {s : SharedDatabase} {b : Book}

/-- A new database has the rows of the empty book. -/
theorem keeps_fresh : Keeps fresh .empty := ⟨rfl, _, rfl, Table.holds_empty⟩

/-- Looking at the table changes only what is remembered. -/
theorem looked_eq (s : SharedDatabase) : s.looked = { s with memory := s.looked.memory } := by
  unfold looked
  cases s with
  | mk committed pending memory => cases memory <;> rfl

/-- Where there is a table, the buckets are those of the database. -/
theorem answer_buckets {table : Table} (htable : s.committed.table = some table)
    (portfolio : PortfolioCode) : s.answer (.buckets portfolio) =
      (s.committed.buckets portfolio, { s with memory := .queried }) := by
  show s.buckets portfolio = _
  unfold SharedDatabase.buckets
  simp [htable]

/-- A claim under somebody else's lock is refused. -/
theorem answer_claim_of_locked (h : s.isLocked = true) (portfolio : PortfolioCode)
    (expected : Cursor) (capacity : UInt32) :
    s.answer (.claim portfolio expected capacity) = (.ok (.conflict none), s) := if_pos h

/-- A claim without a lock is one on the database. -/
theorem answer_claim_of_unlocked (h : s.isLocked = false) (portfolio : PortfolioCode)
    (expected : Cursor) (capacity : UInt32) :
    s.answer (.claim portfolio expected capacity) =
      ((s.committed.claim portfolio expected capacity).1,
        { s.looked with committed := (s.committed.claim portfolio expected capacity).2 }) :=
  if_neg (by simp [h])

/-- What is remembered of the table does not matter. -/
theorem Keeps.remember (h : s.Keeps b) (memory : TableMemory) : Keeps { s with memory } b := h

/-- After a look at the table it has the rows of the book. -/
theorem Keeps.looked (h : s.Keeps b) : s.looked.Keeps b := by
  rw [looked_eq]
  exact h.remember _

/-- The cursor is read from the table. -/
theorem Keeps.active (h : s.Keeps b) (htidy : b.AllTidy) (portfolio : PortfolioCode) :
    s.committed.active portfolio = .ok (lastCursor (b.rows portfolio)) := by
  obtain ⟨-, table, htable, hholds⟩ := h
  exact Database.active_of_shows htable (hholds.shows portfolio) (htidy portfolio)

/-- A question for the buckets is answered from the book. -/
theorem Keeps.answer_buckets (h : s.Keeps b) (htidy : b.AllTidy) (portfolio : PortfolioCode) :
    s.answer (.buckets portfolio) = (.ok (b.rows portfolio), { s with memory := .queried }) := by
  obtain ⟨-, table, htable, hholds⟩ := h
  have hread := Database.buckets_of_shows htable (hholds.shows portfolio) (htidy portfolio)
  rw [SharedDatabase.answer_buckets htable, hread]
  rfl

/-- Without anybody else, a claim is one on the database. -/
theorem Keeps.answer_claim (h : s.Keeps b) {portfolio : PortfolioCode} {expected : Cursor}
    {capacity : UInt32} {reply : Except Failure ClaimReply} {after : Database}
    (hclaim : s.committed.claim portfolio expected capacity = (reply, after)) :
    s.answer (.claim portfolio expected capacity) =
      (reply, { s with committed := after, memory := s.looked.memory }) := by
  have hunlocked : s.isLocked = false := by simp [isLocked, h.1]
  rw [answer_claim_of_unlocked hunlocked, hclaim, looked_eq]

/-- A claim that leaves the database as it is leaves the rows of the book. -/
theorem Keeps.answer_claim_of_same (h : s.Keeps b) {portfolio : PortfolioCode} {expected : Cursor}
    {capacity : UInt32} {reply : Except Failure ClaimReply}
    (hclaim : s.committed.claim portfolio expected capacity = (reply, s.committed)) :
    (s.answer (.claim portfolio expected capacity)).1 = reply ∧
      (s.answer (.claim portfolio expected capacity)).2.Keeps b := by
  rw [h.answer_claim hclaim]
  exact ⟨rfl, h.remember _⟩

/-- A call is answered as by the book, if a claim is for a portfolio with a positive number. -/
theorem Keeps.answer (h : s.Keeps b) (htidy : b.AllTidy) {c : Call} (hc : c.IsNumbered) :
    (s.answer c).1 = (b.answer c).1 ∧ (s.answer c).2.Keeps (b.answer c).2 := by
  cases c with
  | active portfolio => exact ⟨h.active htidy portfolio, h.looked⟩
  | buckets portfolio =>
    rw [h.answer_buckets htidy]
    exact ⟨rfl, h.remember _⟩
  | claim portfolio expected capacity =>
    have hactive := h.active htidy portfolio
    cases hplan : plan (cursorOf (b.rows portfolio)) expected capacity with
    | error outcome =>
      rw [Book.answer_claim_of_error hplan]
      exact h.answer_claim_of_same (Database.claim_of_plan hactive hplan)
    | ok c =>
      -- The rows that the statements write are those of the buckets with the claim.
      obtain ⟨table, htable, hholds⟩ := h.2
      have htaken := takenAt_of_claim (htidy portfolio).sorted (plan_eq_ok hplan).2
      obtain ⟨after, hwrite, hafter⟩ := Database.writeRows_claim hc hholds.grouped
        (hholds.shows portfolio) (htidy portfolio) htaken
      rw [Book.answer_claim_of_ok hplan,
        h.answer_claim (Database.claim_of_writeRows htable hactive hplan hwrite)]
      exact ⟨rfl, h.1, after, rfl, hholds.record hc hafter⟩

/-- A claim for a portfolio without a positive number does not take effect, and changes nothing. -/
theorem Keeps.refuses (h : s.Keeps b) (htidy : b.AllTidy) {c : Call} (hc : ¬ c.IsNumbered) :
    Refused c (s.answer c).1 ∧ (s.answer c).2.Keeps b := by
  cases c with
  | active portfolio => exact absurd trivial hc
  | buckets portfolio => exact absurd trivial hc
  | claim portfolio expected capacity =>
    have hactive := h.active htidy portfolio
    cases hplan : plan (cursorOf (b.rows portfolio)) expected capacity with
    | error outcome =>
      obtain ⟨hreply, hafter⟩ := h.answer_claim_of_same (Database.claim_of_plan hactive hplan)
      refine ⟨fun other hother => ?_, hafter⟩
      rw [hreply] at hother
      rw [← Except.ok.inj hother]
      exact isClaimed_of_plan hplan
    | ok c =>
      -- The table has no rows for such a portfolio, and admits none.
      obtain ⟨table, htable, hholds⟩ := h.2
      have hshows := hholds.shows portfolio
      rw [hholds.unnumbered portfolio hc] at hshows
      have hwrite := Database.writeRows_of_not_positive (c := c) hc hshows
      obtain ⟨hreply, hafter⟩ := h.answer_claim_of_same
        (Database.claim_of_writeRows_error htable hactive hplan hwrite)
      refine ⟨fun other hother => ?_, hafter⟩
      rw [hreply] at hother
      exact nomatch hother

/-- Each call is a step of the book. -/
theorem Keeps.step (h : s.Keeps b) (htidy : b.AllTidy) (c : Call) :
    ∃ after, (s.answer c).2.Keeps after ∧ Book.Step c b (s.answer c).1 after := by
  by_cases hc : c.IsNumbered
  · obtain ⟨hreply, hafter⟩ := h.answer htidy hc
    exact ⟨_, hafter, .inl (Prod.ext hreply rfl)⟩
  · obtain ⟨hrefused, hsame⟩ := h.refuses htidy hc
    exact ⟨b, hsame, .inr ⟨hrefused, rfl⟩⟩

/-- A store on a database follows the book. -/
theorem follows_answer : Follows SharedDatabase.answer Keeps :=
  fun c _ _ _ hhistory hkeeps => hkeeps.step hhistory.allTidy c

end SharedDatabase

end ReferenceMint.Store
