import ReferenceMint.Proofs.Store.DatabaseBook
import ReferenceMint.Proofs.Store.TracedLedger

/-!
# Stores that nobody else uses are steady

A store that nobody else uses gives the same answers until a claim takes effect (`Steady`). A
question leaves it as good as it was, and so does a claim at the cursor that fails or loses its
race; and where such a claim fails once, it fails from then on.

This holds of ledgers on traced storage, whatever is there and whatever faults are set
(`LedgerStore.steady_onTraced`), and of databases, be they locked or not
(`SharedDatabase.steady_answer`), or open for reading alone (`Database.steady_answerReadOnly`).
-/

namespace ReferenceMint.Store

variable {σ : Type} {answer : (c : Call) → σ → Reply c × σ} {alike : σ → σ → Prop}

/-- How a claim at the cursor goes, where `alike` relates a state to those that are as good. -/
inductive Attempt (answer : (c : Call) → σ → Reply c × σ) (alike : σ → σ → Prop)
    (portfolio : PortfolioCode) (expected : Cursor) (capacity : UInt32) (t : σ) :
    Except Failure ClaimReply × σ → Prop
  /-- It takes effect. -/
  | claimed (owner : PortfolioCode) (c : Claim) (after : σ) :
      Attempt answer alike portfolio expected capacity t (.ok (.claimed owner c), after)
  /-- It loses its race, and the store saw no cursor. -/
  | lost (after : σ) (same : alike t after) :
      Attempt answer alike portfolio expected capacity t (.ok (.conflict none), after)
  /-- It fails, and so it does in every state that is as good. -/
  | failed (failure : Failure) (after : σ) (same : alike t after)
      (persists : ∀ u, alike t u → ∃ failure',
        (answer (.claim portfolio expected capacity) u).1 = .error failure') :
      Attempt answer alike portfolio expected capacity t (.error failure, after)

/-- A store gives the same answers in states that are alike, and a call leads to such a state unless
it is a claim that takes effect. -/
structure Steady (answer : (c : Call) → σ → Reply c × σ) (alike : σ → σ → Prop) : Prop where
  /-- What is like a state is like those that the state is like. -/
  trans : ∀ {t u v}, alike t u → alike u v → alike t v
  /-- The cursor is the same, or there is the same failure. -/
  active : ∀ {t u}, alike t u → ∀ portfolio,
    (answer (.active portfolio) u).1 = (answer (.active portfolio) t).1
  /-- The buckets are the same. -/
  buckets : ∀ {t u}, alike t u → ∀ portfolio rows,
    ((answer (.buckets portfolio) u).1 = .ok rows ↔ (answer (.buckets portfolio) t).1 = .ok rows)
  /-- A question for the cursor leads to a state that is alike. -/
  after_active : ∀ t portfolio, alike t (answer (.active portfolio) t).2
  /-- So does a question for the buckets. -/
  after_buckets : ∀ t portfolio, alike t (answer (.buckets portfolio) t).2
  /-- So does a claim at the cursor, unless it takes effect. -/
  attempt : ∀ {t portfolio active capacity c}, (answer (.active portfolio) t).1 = .ok active →
    (active.getD .start).claim capacity = some c →
    Attempt answer alike portfolio (active.getD .start) capacity t
      (answer (.claim portfolio (active.getD .start) capacity) t)

/-! ## Ledgers -/

namespace LedgerStore

open Storage (Traced)
open Storage.Traced (Alike)

variable {s : LedgerStore} {portfolio : PortfolioCode} {t u : Traced}

/-- A claim on traced storage fails exactly where all writes do. -/
theorem attempt_onTraced {active : Option Cursor} {capacity : UInt32} {c : Claim}
    (hactive : (s.onTraced (.active portfolio) t).1 = .ok active)
    (hclaim : (active.getD .start).claim capacity = some c) :
    Attempt s.onTraced Alike portfolio (active.getD .start) capacity t
      (s.onTraced (.claim portfolio (active.getD .start) capacity) t) := by
  obtain ⟨record, hanswer⟩ := s.onTraced_active portfolio t
  rw [hanswer] at hactive
  cases hfound : s.found portfolio t with
  | error failure =>
    rw [hfound] at hactive
    exact nomatch hactive
  | ok read =>
    obtain ⟨ledger, version⟩ := read
    rw [hfound] at hactive
    have hplan := plan_of_claim hclaim
    -- In every state that is alike, the claim comes down to the same put.
    have hput : ∀ u, Alike t u → u.fails (s.path portfolio) = false ∧ ∃ record,
        s.onTraced (.claim portfolio (active.getD .start) capacity) u =
          (s.commit portfolio ledger version c).value Traced.answer { u with record } := by
      intro u hu
      have hfound' := (found_of_alike hu).trans hfound
      exact ⟨fails_of_found hfound', onTraced_claim hfound' hactive hplan⟩
    obtain ⟨hfails, record, hcommit⟩ := hput t (.refl t)
    have hrecorded : Alike t { t with record } := ⟨rfl, rfl, rfl⟩
    rw [hcommit]
    rcases Traced.answer_put_cases (t := { t with record }) hfails
        (ledger.record c s.clock).bytes (demand version) with
      ⟨hwrites, hfault⟩ | ⟨current, after, hrefused, hafter⟩ | ⟨written, after, hwritten⟩
    · rw [value_commit_of_put hfault]
      refine .failed _ _ hrecorded fun u hu => ?_
      obtain ⟨hfails', record', hcommit'⟩ := hput u hu
      have hwrites' : u.faults.writes = true := hu.faults ▸ hwrites
      have hfault' := Traced.answer_put_of_writeFault (t := { u with record := record' })
        (ledger.record c s.clock).bytes (demand version) hfails' hwrites'
      rw [hcommit', value_commit_of_put hfault']
      exact ⟨_, rfl⟩
    · rw [value_commit_of_put hrefused]
      exact .lost _ (hrecorded.trans hafter)
    · rw [value_commit_of_put hwritten]
      exact .claimed _ _ _

/-- A ledger store on traced storage is steady, whatever is there and whatever faults are set. -/
theorem steady_onTraced (s : LedgerStore) : Steady s.onTraced Alike where
  trans := Alike.trans
  active {t u} halike portfolio := by
    obtain ⟨_, ht⟩ := s.onTraced_active portfolio t
    obtain ⟨_, hu⟩ := s.onTraced_active portfolio u
    rw [ht, hu, found_of_alike halike]
  buckets {t u} halike portfolio rows := by
    obtain ⟨_, ht⟩ := s.onTraced_buckets portfolio t
    obtain ⟨_, hu⟩ := s.onTraced_buckets portfolio u
    rw [ht, hu, found_of_alike halike]
  after_active t portfolio := by
    obtain ⟨_, ht⟩ := s.onTraced_active portfolio t
    rw [ht]
    exact ⟨rfl, rfl, rfl⟩
  after_buckets t portfolio := by
    obtain ⟨_, ht⟩ := s.onTraced_buckets portfolio t
    rw [ht]
    exact ⟨rfl, rfl, rfl⟩
  attempt := attempt_onTraced

/-- Where the buckets cannot be read, the cursor cannot either. -/
theorem active_onTraced_of_unreadable
    (h : ∀ rows, (s.onTraced (.buckets portfolio) t).1 ≠ .ok rows) (active : Option Cursor) :
    (s.onTraced (.active portfolio) t).1 ≠ .ok active := by
  obtain ⟨_, hbuckets⟩ := s.onTraced_buckets portfolio t
  obtain ⟨_, hactive⟩ := s.onTraced_active portfolio t
  rw [hbuckets] at h
  rw [hactive]
  cases hfound : s.found portfolio t with
  | error failure => exact nofun
  | ok read =>
    rw [hfound] at h
    exact absurd rfl (h _)

end LedgerStore

/-! ## Databases -/

namespace SharedDatabase

/-- The states of a database that are alike: what was committed is the same, and so is what another
program has under its lock. What the store remembers may differ. -/
structure Alike (s u : SharedDatabase) : Prop where
  /-- The same was committed. -/
  committed : u.committed = s.committed
  /-- The same is under the lock. -/
  pending : u.pending = s.pending

variable {s u : SharedDatabase}

/-- A look at the table changes only what is remembered. -/
theorem alike_looked (s : SharedDatabase) : Alike s s.looked := by
  rw [looked_eq]
  exact ⟨rfl, rfl⟩

/-- The buckets are those of the committed database; only the words of a failure may be others. -/
theorem buckets_eq_ok_iff {portfolio : PortfolioCode} {rows : List Bucket} :
    (s.buckets portfolio).1 = .ok rows ↔ s.committed.buckets portfolio = .ok rows := by
  unfold buckets
  split_ifs with hmissing
  · rw [Bool.and_eq_true, Option.isNone_iff_eq_none] at hmissing
    have hnone : s.committed.table = none := hmissing.2
    have hfailure : s.committed.buckets portfolio =
        .error (.storageWith "failed to read buckets" Database.noTableDetail) := by
      unfold Database.buckets
      rw [hnone]
      rfl
    rw [hfailure]
    simp
  · rfl

/-- A claim on a database takes effect, or it loses its race or fails and changes nothing. -/
theorem attempt_answer {portfolio : PortfolioCode} {active : Option Cursor} {capacity : UInt32}
    {c : Claim} (hactive : (s.answer (.active portfolio)).1 = .ok active)
    (hclaim : (active.getD .start).claim capacity = some c) :
    Attempt SharedDatabase.answer Alike portfolio (active.getD .start) capacity s
      (s.answer (.claim portfolio (active.getD .start) capacity)) := by
  cases hlocked : s.isLocked with
  | true =>
    rw [answer_claim_of_locked hlocked]
    exact .lost _ ⟨rfl, rfl⟩
  | false =>
    have hread : s.committed.active portfolio = .ok active := hactive
    have hplan := plan_of_claim hclaim
    have hanswer := answer_claim_of_unlocked hlocked portfolio (active.getD .start) capacity
    rw [hanswer]
    cases hwrite : Database.writeRows portfolio c.writes (s.committed.table.getD []) with
    | ok table =>
      have hvalue : s.committed.claim portfolio (active.getD .start) capacity =
          (.ok (.claimed portfolio c), { s.committed with table := some table }) := by
        unfold Database.claim
        simp only [hread, hplan, hwrite]
      rw [hvalue]
      exact .claimed _ _ _
    | error stop =>
      cases stop with
      | conflict =>
        have hvalue : s.committed.claim portfolio (active.getD .start) capacity =
            (.ok (.conflict none), s.committed) := by
          unfold Database.claim
          simp only [hread, hplan, hwrite]
        rw [hvalue]
        exact .lost _ ⟨rfl, (alike_looked s).pending⟩
      | failure cause =>
        have hvalue : s.committed.claim portfolio (active.getD .start) capacity =
            (.error cause, s.committed) := by
          unfold Database.claim
          simp only [hread, hplan, hwrite]
        rw [hvalue]
        refine .failed _ _ ⟨rfl, (alike_looked s).pending⟩ fun u hu => ?_
        have hlocked' : u.isLocked = false := by
          unfold isLocked
          rw [hu.pending]
          exact hlocked
        rw [answer_claim_of_unlocked hlocked', hu.committed, hvalue]
        exact ⟨_, rfl⟩

/-- A database is steady, be it locked or not. -/
theorem steady_answer : Steady SharedDatabase.answer Alike where
  trans h h' := ⟨h'.committed.trans h.committed, h'.pending.trans h.pending⟩
  active {s u} halike portfolio := by
    show u.committed.active portfolio = s.committed.active portfolio
    rw [halike.committed]
  buckets {s u} halike portfolio rows := by
    show (u.buckets portfolio).1 = _ ↔ (s.buckets portfolio).1 = _
    rw [buckets_eq_ok_iff, buckets_eq_ok_iff, halike.committed]
  after_active s portfolio := alike_looked s
  after_buckets s portfolio := by
    show Alike s (s.buckets portfolio).2
    unfold buckets
    split_ifs <;> exact ⟨rfl, rfl⟩
  attempt := attempt_answer

end SharedDatabase

/-- A database that can only be read is steady: every claim at its cursor fails. -/
theorem Database.steady_answerReadOnly : Steady Database.answerReadOnly fun db u => u = db where
  trans h h' := h'.trans h
  active halike portfolio := by rw [halike]
  buckets halike portfolio rows := by rw [halike]
  after_active db portfolio := rfl
  after_buckets db portfolio := rfl
  attempt {db portfolio active capacity c} hactive hclaim := by
    have hread : db.active portfolio = .ok active := hactive
    have hfails : db.claimUnwritten portfolio (active.getD .start) capacity =
        .error (Database.refusedWrite (db.table.getD []) portfolio c.letter) := by
      unfold Database.claimUnwritten
      simp only [hread, bind, Except.bind, plan_of_claim hclaim]
      rfl
    show Attempt _ _ _ _ _ _ (db.claimUnwritten portfolio (active.getD .start) capacity, db)
    rw [hfails]
    refine .failed _ _ rfl fun u hu => ?_
    rw [hu]
    exact ⟨_, hfails⟩

end ReferenceMint.Store
