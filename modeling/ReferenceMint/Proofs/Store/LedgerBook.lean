import ReferenceMint.Proofs.Store.Book
import ReferenceMint.Proofs.Store.LedgerStore

/-!
# A bucket store on object storage follows the book

A store on object storage that nobody else writes to keeps the buckets of the book in its ledgers,
and the version of a ledger is at most the number of claims behind it (`Shelves`). As long as
versions stay within sixty-four bits, every call has the reply of the book and leads to the ledgers
of the book after it (`Keeps.serve`). Under capacities below the highest number there are too few
claims to get any further (`follows_serve`).

The time is read anew for each call. It is written into the ledgers, but no reply depends on it.
-/

namespace ReferenceMint.Store.LedgerStore

open Numeral (limit64)
open Storage (Memory.answer Objects Object rewritten)

/-- Object storage in the use of one bucket store. -/
structure Shelf where
  /-- What storage holds. -/
  objects : Objects
  /-- How many calls the store has answered. -/
  answered : Nat

/-- Storage before the first call. -/
def Shelf.empty : Shelf := ⟨[], 0⟩

/-- Answers a call on the bucket store with its ledgers in a folder; `clock` gives the time of each
call. -/
def serve (folder : Option String) (clock : Nat → Timestamp) (c : Call) (shelf : Shelf) :
    Reply c × Shelf :=
  let s : LedgerStore := ⟨folder, clock shelf.answered⟩
  let outcome := (s.answer c).run Memory.answer shelf.objects
  (outcome.result, ⟨outcome.state, shelf.answered + 1⟩)

/-- Storage holds the ledgers of the book. -/
structure Shelves (s : LedgerStore) (objects : Objects) (b : Book) : Prop where
  /-- The ledgers have the buckets of the book. -/
  buckets : ∀ portfolio, s.heldBuckets portfolio objects = .ok (b.rows portfolio)
  /-- A ledger was written once for each claim at most. -/
  versions : ∀ portfolio object, objects.get? (s.path portfolio) = some object →
    object.version ≤ (b.claims portfolio).length

variable {s : LedgerStore} {objects : Objects} {b : Book} {portfolio : PortfolioCode}

/-- Storage without objects holds the ledgers of the empty book. -/
theorem shelves_empty (s : LedgerStore) : s.Shelves [] .empty :=
  ⟨fun _ => rfl, fun _ _ h => absurd h (by simp [Objects.get?])⟩

/-- Ledgers stay those of the book for a store with the same folder. -/
theorem Shelves.of_folder {other : LedgerStore} (h : s.Shelves objects b)
    (hfolder : s.folder = other.folder) : other.Shelves objects b := by
  refine ⟨fun portfolio => ?_, fun portfolio object hobject => ?_⟩
  · rw [← heldBuckets_eq_of_folder hfolder]
    exact h.buckets portfolio
  · rw [← path_eq_of_folder hfolder] at hobject
    exact h.versions portfolio object hobject

/-- The held buckets are those of a held ledger. -/
theorem held_of_heldBuckets {rows : List Bucket} (h : s.heldBuckets portfolio objects = .ok rows) :
    ∃ ledger, s.held portfolio objects = .ok ledger ∧ ledger.rows = rows := by
  unfold heldBuckets at h
  cases hheld : s.held portfolio objects with
  | error failure =>
    rw [hheld] at h
    exact absurd h (by simp [Except.map])
  | ok ledger =>
    rw [hheld] at h
    exact ⟨ledger, rfl, Except.ok.inj h⟩

/-- The cursor of a ledger is that of its last bucket. -/
theorem Shelves.active (h : s.Shelves objects b) (htidy : b.AllTidy) (portfolio : PortfolioCode) :
    ∃ ledger, s.held portfolio objects = .ok ledger ∧
      ledger.active = .ok (lastCursor (b.rows portfolio)) := by
  obtain ⟨ledger, hheld, hrows⟩ := held_of_heldBuckets (h.buckets portfolio)
  refine ⟨ledger, hheld, ?_⟩
  unfold Ledger.active
  rw [hrows]
  exact (htidy portfolio).activeCursor

/-- A question for the cursor is answered from the book. -/
theorem Shelves.answer_active (h : s.Shelves objects b) (htidy : b.AllTidy) :
    (s.answer (.active portfolio)).value Memory.answer objects =
      (.ok (lastCursor (b.rows portfolio)), objects) := by
  obtain ⟨ledger, hheld, hactive⟩ := h.active htidy portfolio
  rw [value_active, hheld]
  exact congrArg (·, objects) hactive

/-- A question for the buckets is answered from the book. -/
theorem Shelves.answer_buckets (h : s.Shelves objects b) :
    (s.answer (.buckets portfolio)).value Memory.answer objects =
      (.ok (b.rows portfolio), objects) := by
  rw [value_buckets]
  exact congrArg (·, objects) (h.buckets portfolio)

/-- Storage holds the ledgers of the book with a claim after the claim was written. -/
theorem Shelves.record {expected : Cursor} {capacity : UInt32} {ledger : Ledger} {c : Claim}
    (h : s.Shelves objects b) (htakes : s.Takes portfolio expected capacity objects ledger c) :
    s.Shelves (objects.set (s.path portfolio)
        (rewritten (objects.get? (s.path portfolio)) (ledger.record c s.clock).bytes))
      (b.record portfolio c) := by
  obtain ⟨other, hother, hrows⟩ := held_of_heldBuckets (h.buckets portfolio)
  obtain rfl : other = ledger := Except.ok.inj (hother.symm.trans htakes.held)
  have hafter := heldBuckets_record hother c
  rw [hrows] at hafter
  have hpath : ∀ owner, owner ≠ portfolio → s.path owner ≠ s.path portfolio := fun owner hne heq =>
    hne (path_injective heq).2
  refine ⟨fun owner => ?_, fun owner object hobject => ?_⟩
  · by_cases howner : owner = portfolio
    · subst howner
      rw [Book.rows_record_self]
      exact hafter
    · rw [Book.rows_record_ne _ _ howner, ← h.buckets owner]
      exact congrArg (Except.map Ledger.rows) (held_set_of_ne _ (hpath owner howner))
  · by_cases howner : owner = portfolio
    · subst howner
      rw [Objects.get?_set_self] at hobject
      rw [← Option.some.inj hobject, Book.claims_record_self, List.length_cons]
      unfold rewritten
      -- Both the version and the number of claims go up by one.
      cases hbefore : objects.get? (s.path owner) with
      | none => simp
      | some before =>
        have hversion := h.versions owner before hbefore
        simpa using hversion
    · rw [Objects.get?_set_ne _ _ (hpath owner howner)] at hobject
      rw [Book.claims_record_ne _ _ howner]
      exact h.versions owner object hobject

/-- While versions stay within sixty-four bits, a call is answered from the book. -/
theorem Shelves.answer (h : s.Shelves objects b) (htidy : b.AllTidy)
    (hfits : ∀ portfolio, (b.claims portfolio).length ≤ limit64) (c : Call) :
    ((s.answer c).value Memory.answer objects).1 = (b.answer c).1 ∧
      s.Shelves ((s.answer c).value Memory.answer objects).2 (b.answer c).2 := by
  cases c with
  | active portfolio =>
    rw [h.answer_active htidy]
    exact ⟨rfl, h⟩
  | buckets portfolio =>
    rw [h.answer_buckets]
    exact ⟨rfl, h⟩
  | claim portfolio expected capacity =>
    obtain ⟨ledger, hheld, hactive⟩ := h.active htidy portfolio
    cases hplan : plan (cursorOf (b.rows portfolio)) expected capacity with
    | error outcome =>
      have hvalue : (s.answer (.claim portfolio expected capacity)).value Memory.answer objects =
        (.ok outcome, objects) := value_claim_of_plan hheld hactive hplan
      rw [Book.answer_claim_of_error hplan, hvalue]
      exact ⟨rfl, h⟩
    | ok c =>
      -- Each version counts a claim of the book, so the next one has its token too, and the put
      -- of the claim succeeds.
      have hversion : ∀ object, objects.get? (s.path portfolio) = some object →
          object.version ≤ limit64 := fun object hobject =>
        Nat.le_trans (h.versions portfolio object hobject) (hfits portfolio)
      have htakes : s.Takes portfolio expected capacity objects ledger c :=
        ⟨hheld, ⟨_, hactive, hplan⟩, hversion⟩
      have hvalue : (s.answer (.claim portfolio expected capacity)).value Memory.answer objects =
        (.ok (.claimed portfolio c), objects.set (s.path portfolio)
          (rewritten (objects.get? (s.path portfolio)) (ledger.record c s.clock).bytes)) :=
        value_claim htakes
      rw [Book.answer_claim_of_ok hplan, hvalue]
      exact ⟨rfl, h.record htakes⟩

/-! ## The store in use -/

/-- The ledgers in a folder are those of the book. -/
def Keeps (folder : Option String) (shelf : Shelf) (b : Book) : Prop :=
  ∀ time, (LedgerStore.mk folder time).Shelves shelf.objects b

/-- Before the first call the ledgers are those of the empty book. -/
theorem keeps_empty (folder : Option String) : Keeps folder .empty .empty :=
  fun _ => shelves_empty _

/-- While versions stay within sixty-four bits, the store answers as the book does. -/
theorem Keeps.serve {folder : Option String} {shelf : Shelf} (h : Keeps folder shelf b)
    (htidy : b.AllTidy) (hfits : ∀ portfolio, (b.claims portfolio).length ≤ limit64)
    (clock : Nat → Timestamp) (c : Call) :
    (LedgerStore.serve folder clock c shelf).1 = (b.answer c).1 ∧
      Keeps folder (LedgerStore.serve folder clock c shelf).2 (b.answer c).2 := by
  obtain ⟨hreply, hafter⟩ := (h (clock shelf.answered)).answer htidy hfits c
  simp only [LedgerStore.serve, Program.result_run, Program.state_run]
  exact ⟨hreply, fun time => hafter.of_folder rfl⟩

/-- While versions stay within sixty-four bits, each call is a step of the book. -/
theorem Keeps.step {folder : Option String} {shelf : Shelf} (h : Keeps folder shelf b)
    (htidy : b.AllTidy) (hfits : ∀ portfolio, (b.claims portfolio).length ≤ limit64)
    (clock : Nat → Timestamp) (c : Call) :
    ∃ after, Keeps folder (LedgerStore.serve folder clock c shelf).2 after ∧
      Book.Step c b (LedgerStore.serve folder clock c shelf).1 after := by
  obtain ⟨hreply, hafter⟩ := h.serve htidy hfits clock c
  exact ⟨_, hafter, .inl (Prod.ext hreply rfl)⟩

/-- A store on object storage follows the book. -/
theorem follows_serve (folder : Option String) (clock : Nat → Timestamp) :
    Follows (serve folder clock) (Keeps folder) :=
  fun c _ _ _ hhistory hkeeps =>
    hkeeps.step hhistory.allTidy hhistory.fits.length_claims_le clock c

end ReferenceMint.Store.LedgerStore
