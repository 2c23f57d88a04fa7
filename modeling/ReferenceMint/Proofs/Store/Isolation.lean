import ReferenceMint.Proofs.Store.LedgerBook
import ReferenceMint.Proofs.Store.Restriction
import ReferenceMint.Proofs.Text.Blank

/-!
# Portfolios do not interfere

Stores may share object storage, each with its ledgers in a folder of its own, and portfolios share
the storage of their store. Yet whatever one of them is asked, in between it makes no difference
what the others are asked (`Isolates`): the replies are those that it gives if all other calls are
left out.

For this it takes two things (`Views`). What a call gives depends on its owner's view of the state
alone, and so does what this view is afterwards. And the calls of others leave the view as it is.
For ledgers the view is the ledger under its path (`LedgerStore.Sight`), and no two owners have the
same path (`LedgerStore.path_injective`). For a database it is the database with the rows of the
portfolio alone (`SharedDatabase.only`).
-/

namespace ReferenceMint

/-! ## Owners of calls -/

section

variable {I : Interface} {σ ν κ : Type} [DecidableEq κ]

/-- Calls made one after the other, each with the reply to it. -/
def answered (answer : (c : I.Call) → σ → I.Reply c × σ) :
    List I.Call → σ → List ((c : I.Call) × I.Reply c)
  | [], _ => []
  | c :: calls, s => ⟨c, (answer c s).1⟩ :: answered answer calls (answer c s).2

/-- The calls of each owner get the replies that they get where all other calls are left out; there
`alone` answers. -/
def Isolates (owner : I.Call → κ) (answer alone : (c : I.Call) → σ → I.Reply c × σ) (s : σ) :
    Prop :=
  ∀ calls key, (answered answer calls s).filter (fun e => owner e.1 = key) =
    answered alone (calls.filter fun c => owner c = key) s

/-- Each owner has a view of the state on which all that it gets depends, and which other owners
leave as it is. -/
structure Views (owner : I.Call → κ) (answer alone : (c : I.Call) → σ → I.Reply c × σ)
    (ready : σ → Prop) (view : κ → σ → ν) : Prop where
  /-- States are ready for calls after calls. -/
  stays : ∀ c s, ready s → ready (answer c s).2 ∧ ready (alone c s).2
  /-- From states with the same view its owner gets the same, and has the same view afterwards. -/
  own : ∀ c s t, ready s → ready t → view (owner c) s = view (owner c) t →
    (answer c s).1 = (alone c t).1 ∧ view (owner c) (answer c s).2 = view (owner c) (alone c t).2
  /-- Other owners keep their views. -/
  others : ∀ c s key, ready s → owner c ≠ key → view key (answer c s).2 = view key s

variable {owner : I.Call → κ} {answer alone : (c : I.Call) → σ → I.Reply c × σ} {ready : σ → Prop}
  {view : κ → σ → ν}

/-- Where an owner has the same view of two states, it gets the same replies from them, with the
calls of others in between and without. -/
theorem Views.filter_answered (h : Views owner answer alone ready view) (calls : List I.Call)
    (key : κ) {s t : σ} (hs : ready s) (ht : ready t) (hview : view key s = view key t) :
    (answered answer calls s).filter (fun e => owner e.1 = key) =
      answered alone (calls.filter fun c => owner c = key) t := by
  -- The run with all calls is a step ahead after a call of somebody else, but the views stay the
  -- same.
  induction calls generalizing s t with
  | nil => rfl
  | cons c calls ih =>
    by_cases howner : owner c = key
    · subst howner
      obtain ⟨hreply, hafter⟩ := h.own c s t hs ht hview
      have hrest := ih (h.stays c s hs).1 (h.stays c t ht).2 hafter
      rw [answered, List.filter_cons_of_pos (by simp), List.filter_cons_of_pos (by simp), answered,
        hreply, hrest]
    · have hrest := ih (h.stays c s hs).1 ht ((h.others c s key hs howner).trans hview)
      rw [answered, List.filter_cons_of_neg (by simp [howner]),
        List.filter_cons_of_neg (by simp [howner]), hrest]

/-- Owners with such views are isolated from each other. -/
theorem Views.isolates (h : Views owner answer alone ready view) {s : σ} (hs : ready s) :
    Isolates owner answer alone s :=
  fun calls key => h.filter_answered calls key hs hs rfl

end

namespace Store

open Numeral (limit64)
open Storage (Memory.answer Objects Object rewritten)

namespace LedgerStore

/-! ## Folders -/

/-- A path that is empty, or has a slash at one of its ends, has an empty piece. -/
theorem nil_mem_splitOn {cs : List Char}
    (h : cs = [] ∨ cs.head? = some '/' ∨ cs.getLast? = some '/') : [] ∈ cs.splitOn '/' := by
  rcases h with rfl | hhead | hlast
  · simp [List.splitOn_nil]
  · obtain ⟨rest, rfl⟩ := List.head?_eq_some_iff.mp hhead
    simp [List.splitOn_cons_eq_if_modifyHead]
  · obtain ⟨front, rfl⟩ := List.getLast?_eq_some_iff.mp hlast
    simp [List.splitOn_append_cons_self, List.splitOn_nil]

/-- A name that can stand between slashes. -/
theorem isSegment_iff {cs : List Char} :
    isSegment cs = true ↔ cs ≠ [] ∧ cs ≠ ['.'] ∧ cs ≠ ['.', '.'] := by
  simp [isSegment, and_assoc]

/-- A folder is accepted if each piece of it can stand between slashes. -/
theorem inFolder_eq_ok_iff {folder : String} {clock : Timestamp} {s : LedgerStore} :
    inFolder folder clock = .ok s ↔ s = ⟨some folder, clock⟩ ∧
      ∀ piece ∈ folder.toList.splitOn '/', piece ≠ [] ∧ piece ≠ ['.'] ∧ piece ≠ ['.', '.'] := by
  have hpieces : (Text.splitAt '/' folder.toList).all isSegment = true ↔
      ∀ piece ∈ folder.toList.splitOn '/', piece ≠ [] ∧ piece ≠ ['.'] ∧ piece ≠ ['.', '.'] := by
    rw [Text.splitAt_eq_splitOn, List.all_eq_true]
    simp only [isSegment_iff]
  unfold inFolder
  simp only [Bool.or_eq_true, List.isEmpty_iff, decide_eq_true_eq, or_assoc, hpieces]
  split_ifs with hends hall
  · have hempty := nil_mem_splitOn hends
    constructor
    · intro h
      exact nomatch h
    · rintro ⟨-, h⟩
      exact absurd rfl (h [] hempty).1
  · constructor
    · intro h
      exact ⟨(Except.ok.inj h).symm, hall⟩
    · rintro ⟨rfl, -⟩
      rfl
  · constructor
    · intro h
      exact nomatch h
    · rintro ⟨-, h⟩
      exact absurd h hall

/-! ## Ledgers -/

/-- What can be seen of a ledger: its buckets, and how often it was written. -/
structure Sight where
  buckets : Except Failure (List Bucket)
  timesWritten : Nat

/-- A ledger as storage holds it. -/
def sight (s : LedgerStore) (portfolio : PortfolioCode) (objects : Objects) : Sight :=
  ⟨s.heldBuckets portfolio objects, s.timesWritten portfolio objects⟩

/-- Answers a call by what can be seen of its ledger. -/
def Sight.answer : (c : Call) → Sight → Reply c × Sight
  | .active _, seen => (seen.buckets.bind Bucket.activeCursor, seen)
  | .buckets _, seen => (seen.buckets, seen)
  | .claim portfolio expected capacity, seen =>
    match seen.buckets with
    | .error failure => (.error failure, seen)
    | .ok rows => match Bucket.activeCursor rows with
      | .error failure => (.error failure, seen)
      | .ok active => match plan (active.getD .start) expected capacity with
        | .error outcome => (.ok outcome, seen)
        | .ok c =>
          if seen.timesWritten ≤ limit64 then
            (.ok (.claimed portfolio c), ⟨.ok (recorded portfolio rows c), seen.timesWritten + 1⟩)
          else (.ok (.conflict none), seen)

/-- A ledger is the same for all stores with its folder. -/
theorem sight_eq_of_folder {s other : LedgerStore} (h : s.folder = other.folder)
    (portfolio : PortfolioCode) (objects : Objects) :
    s.sight portfolio objects = other.sight portfolio objects := by
  unfold sight timesWritten
  rw [heldBuckets_eq_of_folder h, path_eq_of_folder h]

/-- An object under another path makes no difference to a ledger. -/
theorem sight_set_of_ne {s : LedgerStore} {portfolio : PortfolioCode} {path : String}
    (h : s.path portfolio ≠ path) (objects : Objects) (object : Object) :
    s.sight portfolio (objects.set path object) = s.sight portfolio objects := by
  unfold sight heldBuckets timesWritten
  rw [held_set_of_ne object h, objects.get?_set_ne object h]

/-- A claim gives what its ledger gives, and changes storage under the path of the ledger only. -/
theorem value_claim_of_sight (s : LedgerStore) (portfolio : PortfolioCode) (expected : Cursor)
    (capacity : UInt32) (objects : Objects) : ∃ reply after,
      (s.claim portfolio expected capacity).value Memory.answer objects = (reply, after) ∧
      Sight.answer (.claim portfolio expected capacity) (s.sight portfolio objects) =
        (reply, s.sight portfolio after) ∧
      (after = objects ∨ ∃ object, after = objects.set (s.path portfolio) object) := by
  rw [value_claim_eq]
  unfold Sight.answer
  cases hheld : s.held portfolio objects with
  | error failure =>
    have hbuckets : (s.sight portfolio objects).buckets = .error failure := by
      simp only [sight, heldBuckets, hheld, Except.map]
    simp only [hbuckets]
    exact ⟨_, _, rfl, rfl, .inl rfl⟩
  | ok ledger =>
    have hbuckets : (s.sight portfolio objects).buckets = .ok ledger.rows := by
      simp only [sight, heldBuckets, hheld, Except.map]
    simp only [hbuckets, Ledger.active]
    cases Bucket.activeCursor ledger.rows with
    | error failure => exact ⟨_, _, rfl, rfl, .inl rfl⟩
    | ok active =>
      simp only
      cases plan (active.getD .start) expected capacity with
      | error outcome => exact ⟨_, _, rfl, rfl, .inl rfl⟩
      | ok c =>
        have htimes : (s.sight portfolio objects).timesWritten =
            s.timesWritten portfolio objects := rfl
        simp only [htimes]
        split_ifs
        · refine ⟨_, _, rfl, ?_, .inr ⟨_, rfl⟩⟩
          -- The write adds one to the version, and the claim to the buckets.
          unfold sight
          rw [heldBuckets_record hheld]
          unfold timesWritten
          rw [objects.get?_set_self]
          rfl
        · exact ⟨_, _, rfl, rfl, .inl rfl⟩

/-- A call gives what its ledger gives, and changes storage under the path of this ledger only. -/
theorem value_answer (s : LedgerStore) (c : Call) (objects : Objects) : ∃ reply after,
      (s.answer c).value Memory.answer objects = (reply, after) ∧
      Sight.answer c (s.sight c.portfolio objects) = (reply, s.sight c.portfolio after) ∧
      (after = objects ∨ ∃ object, after = objects.set (s.path c.portfolio) object) := by
  cases c with
  | active portfolio =>
    refine ⟨_, _, s.value_active portfolio objects, ?_, .inl rfl⟩
    show ((s.heldBuckets portfolio objects).bind Bucket.activeCursor, _) = _
    unfold heldBuckets
    cases s.held portfolio objects <;> rfl
  | buckets portfolio => exact ⟨_, _, s.value_buckets portfolio objects, rfl, .inl rfl⟩
  | claim portfolio expected capacity =>
    exact s.value_claim_of_sight portfolio expected capacity objects

/-! ## Stores with shared object storage -/

/-- A call on one of the stores that share object storage: the folder of its ledgers, and the
call. -/
structure Request where
  folder : Option String
  call : Call

/-- The interface of stores that share object storage. -/
abbrev shared : Interface := ⟨Request, fun r => Reply r.call⟩

/-- The portfolio that a request is for, of the store with the folder. -/
def Request.owner (r : Request) : Option String × PortfolioCode := (r.folder, r.call.portfolio)

/-- The store with the folder answers; `clock` gives the time of each call. -/
def serveShared (clock : Nat → Timestamp) (r : Request) (shelf : Shelf) : Reply r.call × Shelf :=
  serve r.folder clock r.call shelf

/-- The ledger of an owner as storage holds it; the time that a store would write does not
matter. -/
def ownSight (owner : Option String × PortfolioCode) (shelf : Shelf) : Sight :=
  (LedgerStore.mk owner.1 .epoch).sight owner.2 shelf.objects

/-- A request gives what the ledger of its owner gives. -/
theorem serveShared_own (clock : Nat → Timestamp) (r : Request) (shelf : Shelf) :
    (serveShared clock r shelf).1 = (Sight.answer r.call (ownSight r.owner shelf)).1 ∧
      ownSight r.owner (serveShared clock r shelf).2 =
        (Sight.answer r.call (ownSight r.owner shelf)).2 := by
  have hsight : ∀ objects, (LedgerStore.mk r.folder .epoch).sight r.call.portfolio objects =
      (LedgerStore.mk r.folder (clock shelf.answered)).sight r.call.portfolio objects := by
    intro objects
    apply sight_eq_of_folder
    rfl
  obtain ⟨reply, after, hvalue, hanswer, -⟩ :=
    value_answer ⟨r.folder, clock shelf.answered⟩ r.call shelf.objects
  unfold ownSight Request.owner
  simp only [serveShared, serve, Program.result_run, Program.state_run, hsight, hvalue, hanswer,
    and_self]

/-- A request makes no difference to the ledgers of other owners. -/
theorem serveShared_others (clock : Nat → Timestamp) {r : Request} (shelf : Shelf)
    {owner : Option String × PortfolioCode} (h : r.owner ≠ owner) :
    ownSight owner (serveShared clock r shelf).2 = ownSight owner shelf := by
  obtain ⟨reply, after, hvalue, -, hafter⟩ :=
    value_answer ⟨r.folder, clock shelf.answered⟩ r.call shelf.objects
  unfold ownSight
  simp only [serveShared, serve, Program.state_run, hvalue]
  rcases hafter with rfl | ⟨object, rfl⟩
  · rfl
  · apply sight_set_of_ne
    intro hpath
    obtain ⟨hfolder, hportfolio⟩ := path_injective hpath
    exact h (Prod.ext hfolder.symm hportfolio.symm)

/-- Portfolios view their ledgers, at whichever times the stores are asked. -/
theorem views_serveShared (clock other : Nat → Timestamp) :
    Views (I := shared) Request.owner (serveShared clock) (serveShared other) (fun _ => True)
      ownSight where
  stays _ _ _ := ⟨trivial, trivial⟩
  own r s t _ _ hview := by
    obtain ⟨hreply, hafter⟩ := serveShared_own clock r s
    obtain ⟨hreply', hafter'⟩ := serveShared_own other r t
    rw [hreply, hafter, hreply', hafter', hview]
    exact ⟨rfl, rfl⟩
  others _ s _ _ howner := serveShared_others clock s howner

end LedgerStore

/-! ## A shared database -/

/-- Portfolios view their own rows. -/
theorem SharedDatabase.views_answer :
    Views (I := interface) Call.portfolio SharedDatabase.answer SharedDatabase.answer
      (fun s => s.committed.InOrder) (fun portfolio s => s.only portfolio) where
  stays c _ hs := ⟨inOrder_answer hs c, inOrder_answer hs c⟩
  own c s t hs ht hview := by
    obtain ⟨hreply, hafter⟩ := answer_only hs c
    obtain ⟨hreply', hafter'⟩ := answer_only ht c
    rw [← hreply, ← hafter, ← hreply', ← hafter', hview]
    exact ⟨rfl, rfl⟩
  others _ _ _ hs howner := only_answer hs howner

/-- A folder is accepted if and only if none of the names between its slashes is empty or points
back. Ledgers of different stores or portfolios have different paths. So of the stores that share
object storage, each portfolio gets what it gets if nobody else calls, whatever storage holds at
first and whatever the times are. The same is true of the portfolios in one database, whatever rows
its table holds. -/
theorem portfolios_do_not_interfere :
    (∀ folder clock s, LedgerStore.inFolder folder clock = .ok s ↔ s = ⟨some folder, clock⟩ ∧
      ∀ piece ∈ folder.toList.splitOn '/', piece ≠ [] ∧ piece ≠ ['.'] ∧ piece ≠ ['.', '.']) ∧
    (∀ (s other : LedgerStore) p q, s.path p = other.path q → s.folder = other.folder ∧ p = q) ∧
    (∀ clock other shelf, Isolates (I := LedgerStore.shared) LedgerStore.Request.owner
      (LedgerStore.serveShared clock) (LedgerStore.serveShared other) shelf) ∧
    ∀ s : SharedDatabase, s.committed.InOrder →
      Isolates (I := interface) Call.portfolio SharedDatabase.answer SharedDatabase.answer s :=
  ⟨fun _ _ _ => LedgerStore.inFolder_eq_ok_iff, fun _ _ _ _ => LedgerStore.path_injective,
    fun clock other _ => (LedgerStore.views_serveShared clock other).isolates trivial,
    fun _ hs => SharedDatabase.views_answer.isolates hs⟩

/-- Claims for the portfolios 1 and 10, one after the other. -/
def oneAndTen : List Call := [.claim ⟨1⟩ .start 5, .claim ⟨10⟩ .start 5, .claim ⟨1⟩ ⟨.first, 2⟩ 5]

/-- A folder may be named like a ledger. And the second claim for portfolio 1 takes effect, since
the one for portfolio 10 in between makes no difference to it. -/
theorem portfolios_do_not_interfere_lookalike :
    LedgerStore.inFolder "portfolio=1/reference_buckets.json" .epoch =
        .ok ⟨some "portfolio=1/reference_buckets.json", .epoch⟩ ∧
      (answered (I := interface) SharedDatabase.answer oneAndTen .fresh).filter
          (fun e => e.1.portfolio = ⟨1⟩) =
        [⟨.claim ⟨1⟩ .start 5, .ok (.claimed ⟨1⟩ ⟨.first, 1, .stays⟩)⟩,
          ⟨.claim ⟨1⟩ ⟨.first, 2⟩ 5, .ok (.claimed ⟨1⟩ ⟨.first, 2, .stays⟩)⟩] := by
  obtain ⟨hfolder, -, -, hdatabase⟩ := portfolios_do_not_interfere
  refine ⟨(hfolder _ _ _).mpr ⟨rfl, by decide⟩, ?_⟩
  exact hdatabase .fresh ⟨[], rfl, List.Pairwise.nil⟩ oneAndTen ⟨1⟩

end Store

end ReferenceMint
