import ReferenceMint.Proofs.Store.Serving
import ReferenceMint.Proofs.Store.TracedLedger

/-!
# A ledger store with races to lose

Traced storage that holds the ledgers of a book and fails no call may still have races to lose
(`LedgerStore.Contended`). Questions use up none of them. A claim that is planned loses one if there
is one (`Contended.claim_lost`), and else it is recorded (`Contended.claim_taken`). So without races
to lose the store serves the book (`serves_onTraced`).
-/

namespace ReferenceMint.Store.LedgerStore

open Numeral (limit64)
open Storage (Traced)

variable {s : LedgerStore} {b : Book} {races : Nat} {t : Traced} {portfolio : PortfolioCode}
  {expected : Cursor} {capacity : UInt32} {c : Claim}

/-- Storage holds the ledgers of the book and fails no call, and so many races are to be lost. -/
structure Contended (s : LedgerStore) (b : Book) (races : Nat) (t : Traced) : Prop where
  /-- The ledgers are those of the book. -/
  shelves : s.Shelves t.objects b
  /-- No path fails. -/
  failing : t.failing = []
  /-- No fault is set. -/
  faults : t.faults = .none
  /-- So many races are to be lost. -/
  races : t.racesToLose = races

namespace Contended

/-- No call fails for its path. -/
theorem fails (h : s.Contended b races t) (path : String) : t.fails path = false := by
  unfold Traced.fails
  rw [h.failing]
  rfl

/-- Whatever is recorded, storage stays the same. -/
theorem recorded (h : s.Contended b races t) (record : List Storage.Operation) :
    s.Contended b races { t with record } := ⟨h.shelves, h.failing, h.faults, h.races⟩

/-- What is read is the ledger of the book, with the token of its version. -/
theorem found (h : s.Contended b races t) (htidy : b.AllTidy) (portfolio : PortfolioCode) :
    ∃ ledger, s.held portfolio t.objects = .ok ledger ∧
      s.found portfolio t = .ok (ledger, (t.objects.get? (s.path portfolio)).map fun object =>
        Storage.token object.version) ∧
      ledger.active = .ok (lastCursor (b.rows portfolio)) := by
  obtain ⟨ledger, hheld, hactive⟩ := h.shelves.active htidy portfolio
  refine ⟨ledger, hheld, ?_, hactive⟩
  rw [found_of_calm (h.fails _) (by rw [h.faults]; rfl), hheld]
  rfl

/-- A question for the cursor is answered from the book. -/
theorem active (h : s.Contended b races t) (htidy : b.AllTidy) (portfolio : PortfolioCode) :
    ∃ u, s.onTraced (.active portfolio) t = (.ok (lastCursor (b.rows portfolio)), u) ∧
      s.Contended b races u := by
  obtain ⟨ledger, -, hfound, hactive⟩ := h.found htidy portfolio
  obtain ⟨record, hanswer⟩ := s.onTraced_active portfolio t
  rw [hfound] at hanswer
  exact ⟨_, hanswer.trans (congrArg (·, _) hactive), h.recorded record⟩

/-- A question for the buckets is answered from the book. -/
theorem buckets (h : s.Contended b races t) (htidy : b.AllTidy) (portfolio : PortfolioCode) :
    ∃ u, s.onTraced (.buckets portfolio) t = (.ok (b.rows portfolio), u) ∧
      s.Contended b races u := by
  obtain ⟨ledger, hheld, hfound, -⟩ := h.found htidy portfolio
  obtain ⟨other, hother, hrows⟩ := held_of_heldBuckets (h.shelves.buckets portfolio)
  obtain rfl : other = ledger := Except.ok.inj (hother.symm.trans hheld)
  obtain ⟨record, hanswer⟩ := s.onTraced_buckets portfolio t
  rw [hfound] at hanswer
  rw [← hrows]
  exact ⟨_, hanswer, h.recorded record⟩

/-- A claim that is not planned is answered as the plan says. -/
theorem claim_of_error {outcome : ClaimReply} (h : s.Contended b races t) (htidy : b.AllTidy)
    (hplan : plan (cursorOf (b.rows portfolio)) expected capacity = .error outcome) :
    ∃ u, s.onTraced (.claim portfolio expected capacity) t = (.ok outcome, u) ∧
      s.Contended b races u := by
  obtain ⟨ledger, -, hfound, hactive⟩ := h.found htidy portfolio
  obtain ⟨record, hanswer⟩ := onTraced_claim_of_error hfound hactive hplan
  exact ⟨_, hanswer, h.recorded record⟩

/-- A claim that is planned puts a ledger whose demand holds, as long as tokens carry the
versions. -/
theorem exists_put (h : s.Contended b races t) (hb : b.HasHistory)
    (hplan : plan (cursorOf (b.rows portfolio)) expected capacity = .ok c) :
    ∃ ledger version record, s.Takes portfolio expected capacity t.objects ledger c ∧
      (demand version).holds (t.objects.get? (s.path portfolio)) = true ∧
      s.onTraced (.claim portfolio expected capacity) t =
        (s.commit portfolio ledger version c).value Traced.answer { t with record } := by
  obtain ⟨ledger, hheld, hfound, hactive⟩ := h.found hb.allTidy portfolio
  obtain ⟨record, hanswer⟩ := onTraced_claim hfound hactive hplan
  -- Each version counts a claim of the book, of which there are not too many.
  have hversion : ∀ object, t.objects.get? (s.path portfolio) = some object →
      object.version ≤ limit64 := fun object hobject =>
    Nat.le_trans (h.shelves.versions portfolio object hobject) (hb.fits.length_claims_le portfolio)
  exact ⟨ledger, _, record, ⟨hheld, ⟨_, hactive, hplan⟩, hversion⟩,
    (holds_demand_iff _).mpr hversion, hanswer⟩

/-- A claim that is planned loses its race while there are races to lose. -/
theorem claim_lost (h : s.Contended b (races + 1) t) (hb : b.HasHistory)
    (hplan : plan (cursorOf (b.rows portfolio)) expected capacity = .ok c) :
    ∃ u, s.onTraced (.claim portfolio expected capacity) t = (.ok (.conflict none), u) ∧
      s.Contended b races u := by
  obtain ⟨ledger, version, record, -, hholds, hanswer⟩ := h.exists_put hb hplan
  have hraces := h.races
  have hlose : Traced.loseRace { t with record } (demand version) =
      (true, { t with record, racesToLose := races }) := by
    unfold Traced.loseRace
    rw [if_neg (by cases version <;> simp [demand]), if_pos (by simp only [hraces]; omega)]
    simp only [hraces, Nat.add_sub_cancel]
  have hput := Traced.answer_put_of_lost (ledger.record c s.clock).bytes
    (h.recorded record |>.fails (s.path portfolio)) (congrArg Storage.Faults.writes h.faults) hholds
    (congrArg Prod.fst hlose)
  refine ⟨_, hanswer.trans (value_commit_of_put hput), ?_⟩
  rw [hlose]
  exact ⟨h.shelves, h.failing, h.faults, rfl⟩

/-- A claim that is planned is recorded when there is no race to lose. -/
theorem claim_taken (h : s.Contended b 0 t) (hb : b.HasHistory)
    (hplan : plan (cursorOf (b.rows portfolio)) expected capacity = .ok c) :
    ∃ u, s.onTraced (.claim portfolio expected capacity) t = (.ok (.claimed portfolio c), u) ∧
      s.Contended (b.record portfolio c) 0 u := by
  obtain ⟨ledger, version, record, htakes, hholds, hanswer⟩ := h.exists_put hb hplan
  have hlose : Traced.loseRace { t with record } (demand version) =
      (false, { t with record }) := by
    unfold Traced.loseRace
    rw [if_neg (by cases version <;> simp [demand]), if_neg (by simp only [h.races]; omega)]
    simp only [h.faults, Storage.Faults.none]
  have hput := Traced.answer_put_of_not_lost (ledger.record c s.clock).bytes
    (h.recorded record |>.fails (s.path portfolio)) (congrArg Storage.Faults.writes h.faults) hholds
    (congrArg Prod.fst hlose)
  refine ⟨_, hanswer.trans (value_commit_of_put hput), ?_⟩
  rw [hlose]
  exact ⟨h.shelves.record htakes, h.failing, h.faults, h.races⟩

end Contended

/-- Without races to lose, the store serves the book. -/
theorem serves_onTraced (s : LedgerStore) :
    Serves s.onTraced fun t b => s.Contended b 0 t := by
  intro call t b _ _ hb h
  cases call with
  | active portfolio =>
    obtain ⟨u, hanswer, hu⟩ := h.active hb.allTidy portfolio
    rw [hanswer]
    exact ⟨rfl, hu⟩
  | buckets portfolio =>
    obtain ⟨u, hanswer, hu⟩ := h.buckets hb.allTidy portfolio
    rw [hanswer]
    exact ⟨rfl, hu⟩
  | claim portfolio expected capacity =>
    cases hplan : plan (cursorOf (b.rows portfolio)) expected capacity with
    | error outcome =>
      obtain ⟨u, hanswer, hu⟩ := h.claim_of_error hb.allTidy hplan
      rw [Book.answer_claim_of_error hplan, hanswer]
      exact ⟨rfl, hu⟩
    | ok c =>
      obtain ⟨u, hanswer, hu⟩ := h.claim_taken hb hplan
      rw [Book.answer_claim_of_ok hplan, hanswer]
      exact ⟨rfl, hu⟩

end ReferenceMint.Store.LedgerStore
