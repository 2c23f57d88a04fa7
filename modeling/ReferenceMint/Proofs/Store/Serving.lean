import ReferenceMint.Proofs.Asking
import ReferenceMint.Proofs.Reference
import ReferenceMint.Proofs.Store.DatabaseBook
import ReferenceMint.Proofs.Store.LedgerBook

/-!
# What programs get from a bucket store

A store serves the book (`Serves`) if it answers every call as the book does, where claims are for
portfolios with positive numbers. Settings only allow such claims (`Settings.Allows.isNumbered`), so
whatever an allocation, an issue or a batch gives on such a store, it gives on the book
(`Serves.value`). Both stores keep the book in this way from their start on (`Bookkeeping`), so what
is proved of runs on the book holds of both. Under the highest capacity they do so, too, as long as
there are versions for the claims (`LastingBookkeeping`).
-/

namespace ReferenceMint

namespace Settings

variable {s : Settings}

/-- Settings have capacities below the highest number. -/
theorem Allows.isBounded {c : Store.Call} (h : s.Allows c) : c.IsBounded := by
  cases c with
  | active portfolio => trivial
  | buckets portfolio => trivial
  | claim portfolio expected capacity =>
    obtain ⟨-, rfl⟩ := h
    have hcapacity := s.toNat_capacity_lt
    show s.capacity.toNat < 2 ^ 32 - 1
    omega

/-- The portfolios of a registry have positive numbers. -/
theorem Allows.isNumbered {c : Store.Call} (h : s.Allows c) : c.IsNumbered := by
  cases c with
  | active portfolio => trivial
  | buckets portfolio => trivial
  | claim portfolio expected capacity =>
    obtain ⟨hcontains, -⟩ := h
    rw [Registry.contains_iff] at hcontains
    have hmin := UInt16.le_iff_toNat_le.mp s.registry.min_pos
    have hone : (1 : UInt16).toNat = 1 := rfl
    show (0 : Int) < (portfolio.number.toNat : Int)
    omega

/-- A portfolio that is checked has not the code zero. -/
theorem number_ne_zero {code : Int} {portfolio : PortfolioCode}
    (hcheck : s.check code = .ok portfolio) : portfolio.number ≠ 0 := by
  have hallowed : s.Allows (.claim portfolio .start s.capacity) :=
    ⟨(check_eq_ok_iff.mp hcheck).2, rfl⟩
  have hpos : (0 : Int) < portfolio.number.toNat := hallowed.isNumbered
  intro hzero
  rw [hzero] at hpos
  exact absurd hpos (by decide)

end Settings

namespace Store

variable {σ α : Type} {answer : (c : Call) → σ → Reply c × σ} {keeps : σ → Book → Prop}
  {start : σ}

/-- A store answers as the book does, as long as claims have capacities below the highest number and
are for portfolios with positive numbers. -/
def Serves (answer : (c : Call) → σ → Reply c × σ) (keeps : σ → Book → Prop) : Prop :=
  ∀ c s b, c.IsBounded → c.IsNumbered → b.HasHistory → keeps s b →
    (answer c s).1 = (b.answer c).1 ∧ keeps (answer c s).2 (b.answer c).2

/-- What a program gives that only asks for what settings allow is what it gives on the book. -/
theorem Serves.value (h : Serves answer keeps) {settings : Settings} {p : Program interface α}
    (hp : p.Asks settings.Allows) {s : σ} {b : Book} (hs : keeps s b) (hb : b.HasHistory) :
    (p.value answer s).1 = (p.value Book.answer b).1 ∧
      keeps (p.value answer s).2 (p.value Book.answer b).2 ∧
      (p.value Book.answer b).2.HasHistory := by
  refine hp.value (R := fun s b => keeps s b ∧ b.HasHistory) ?_ ⟨hs, hb⟩
  rintro c s b hallows ⟨hs, hb⟩
  obtain ⟨hreply, hafter⟩ := h c s b hallows.isBounded hallows.isNumbered hb hs
  exact ⟨hreply, hafter, hb.answer hallows.isBounded⟩

/-- A store has the buckets of the book. -/
theorem Serves.buckets (h : Serves answer keeps) {s : σ} {b : Book} (hs : keeps s b)
    (hb : b.HasHistory) (portfolio : PortfolioCode) :
    (answer (.buckets portfolio) s).1 = .ok (b.rows portfolio) :=
  (h (.buckets portfolio) s b trivial trivial hb hs).1

/-- A store has the cursor of the book. -/
theorem Serves.active (h : Serves answer keeps) {s : σ} {b : Book} (hs : keeps s b)
    (hb : b.HasHistory) (portfolio : PortfolioCode) :
    (answer (.active portfolio) s).1 = .ok (lastCursor (b.rows portfolio)) :=
  (h (.active portfolio) s b trivial trivial hb hs).1

/-- A store that keeps the book from its start on: it follows the book whatever it is asked, and it
answers as the book does what settings allow. -/
structure Bookkeeping (answer : (c : Call) → σ → Reply c × σ) (keeps : σ → Book → Prop)
    (start : σ) : Prop where
  /-- Every call is answered from the book, or is a claim that is refused. -/
  follows : Follows answer keeps
  /-- No claim that settings allow is refused. -/
  serves : Serves answer keeps
  /-- At the start nothing was claimed. -/
  starts : keeps start .empty

/-- After any calls under capacities below the highest number, the store has the book of the claims
that took effect. -/
theorem Bookkeeping.reached (h : Bookkeeping answer keeps start) {calls : List Call}
    (hcalls : ∀ c ∈ calls, c.IsBounded) :
    ∃ b, keeps (converse answer calls start).2 b ∧ b.HasHistory ∧
      ∀ portfolio, b.claims portfolio =
        (claimsFrom portfolio (converse answer calls start).1).reverse := by
  obtain ⟨b, hkeeps, hhistory, hclaims⟩ := h.follows.converse hcalls (fun _ => .nil) h.starts
  refine ⟨b, hkeeps, hhistory, fun portfolio => ?_⟩
  rw [hclaims]
  exact List.append_nil _

/-- A store that keeps the book under any capacities, as long as there are versions for its
claims. -/
structure LastingBookkeeping (answer : (c : Call) → σ → Reply c × σ) (keeps : σ → Book → Prop)
    (start : σ) : Prop where
  /-- Every call is answered from the book, or is a claim that is refused. -/
  follows : ∀ c s b, b.AllTidy → b.Fits 0 → keeps s b →
    ∃ after, keeps (answer c s).2 after ∧ Book.Step c b (answer c s).1 after
  /-- No claim for a portfolio with a positive number is refused. -/
  serves : ∀ c s b, c.IsNumbered → b.AllTidy → b.Fits 0 → keeps s b →
    (answer c s).1 = (b.answer c).1 ∧ keeps (answer c s).2 (b.answer c).2
  /-- At the start nothing was claimed. -/
  starts : keeps start .empty

namespace LastingBookkeeping

variable {s : σ} {b : Book} {spare : Nat}

/-- Under capacities below the highest number, there are versions for all claims. -/
theorem bookkeeping (h : LastingBookkeeping answer keeps start) :
    Bookkeeping answer keeps start where
  follows c s b _ hhistory hkeeps :=
    h.follows c s b hhistory.allTidy hhistory.fits.length_claims_le hkeeps
  serves c s b _ hnumbered hhistory hkeeps :=
    h.serves c s b hnumbered hhistory.allTidy hhistory.fits.length_claims_le hkeeps
  starts := h.starts

/-- The store has the buckets of the book. -/
theorem buckets (h : LastingBookkeeping answer keeps start) (hs : keeps s b) (htidy : b.AllTidy)
    (hfits : b.Fits spare) (portfolio : PortfolioCode) :
    (answer (.buckets portfolio) s).1 = .ok (b.rows portfolio) :=
  (h.serves (.buckets portfolio) s b trivial htidy hfits.length_claims_le hs).1

/-- The store has the cursor of the book. -/
theorem active (h : LastingBookkeeping answer keeps start) (hs : keeps s b) (htidy : b.AllTidy)
    (hfits : b.Fits spare) (portfolio : PortfolioCode) :
    (answer (.active portfolio) s).1 = .ok (lastCursor (b.rows portfolio)) :=
  (h.serves (.active portfolio) s b trivial htidy hfits.length_claims_le hs).1

/-- Each call takes one version at most. -/
theorem fits_converse (h : LastingBookkeeping answer keeps start) (calls : List Call)
    (hs : keeps s b) (htidy : b.AllTidy) (hfits : b.Fits (calls.length + spare)) :
    ∃ after, keeps (converse answer calls s).2 after ∧ after.AllTidy ∧ after.Fits spare := by
  induction calls generalizing s b with
  | nil =>
    rw [List.length_nil, Nat.zero_add] at hfits
    exact ⟨b, hs, htidy, hfits⟩
  | cons c calls ih =>
    rw [List.length_cons, Nat.add_right_comm] at hfits
    obtain ⟨after, hafter, hanswer | ⟨-, rfl⟩⟩ := h.follows c s b htidy hfits.length_claims_le hs
    · obtain rfl : after = (b.answer c).2 := congrArg Prod.snd hanswer
      exact ih hafter (htidy.answer c) (hfits.answer c)
    · exact ih hafter htidy fun portfolio => Nat.le_of_succ_le (hfits portfolio)

/-- After calls that leave a version to spare, the store has a tidy book with a version to spare. -/
theorem reached (h : LastingBookkeeping answer keeps start) {calls : List Call}
    (hcalls : calls.length < Numeral.limit64 ∨ ∀ c ∈ calls, c.IsBounded) :
    ∃ b, keeps (converse answer calls start).2 b ∧ b.AllTidy ∧ b.Fits 1 := by
  rcases hcalls with hfew | hbounded
  · have hfits : Book.empty.Fits (calls.length + 1) := by
      intro portfolio
      show 0 + (calls.length + 1) ≤ Numeral.limit64
      omega
    exact h.fits_converse calls h.starts tidy_nil hfits
  · obtain ⟨b, hkeeps, hhistory, -⟩ := h.bookkeeping.reached hbounded
    exact ⟨b, hkeeps, hhistory.allTidy, hhistory.fits⟩

end LastingBookkeeping

/-- A store on object storage keeps the book as long as there are versions. -/
theorem LedgerStore.lastingBookkeeping (folder : Option String) (clock : Nat → Timestamp) :
    LastingBookkeeping (LedgerStore.serve folder clock) (LedgerStore.Keeps folder) .empty where
  follows c _ _ htidy hfits hkeeps := hkeeps.step htidy hfits clock c
  serves c _ _ _ htidy hfits hkeeps := hkeeps.serve htidy hfits clock c
  starts := LedgerStore.keeps_empty folder

/-- A store on a database keeps the book. -/
theorem SharedDatabase.lastingBookkeeping :
    LastingBookkeeping SharedDatabase.answer SharedDatabase.Keeps .fresh where
  follows c _ _ htidy _ hkeeps := hkeeps.step htidy c
  serves _ _ _ hnumbered htidy _ hkeeps := hkeeps.answer htidy hnumbered
  starts := SharedDatabase.keeps_fresh

/-- A store on object storage keeps the book under capacities below the highest number. -/
theorem LedgerStore.bookkeeping (folder : Option String) (clock : Nat → Timestamp) :
    Bookkeeping (LedgerStore.serve folder clock) (LedgerStore.Keeps folder) .empty :=
  (LedgerStore.lastingBookkeeping folder clock).bookkeeping

/-- So does a store on a database. -/
theorem SharedDatabase.bookkeeping :
    Bookkeeping SharedDatabase.answer SharedDatabase.Keeps .fresh :=
  SharedDatabase.lastingBookkeeping.bookkeeping

end Store

end ReferenceMint
