import ReferenceMint.Proofs.Asking
import ReferenceMint.Proofs.WriteOnce

/-!
# Reports and allocations agree

A report takes the buckets of a portfolio out of the ledger and finds the cursor itself; an
allocation asks the store for the cursor and has it compared with the ledger once more. Both come to
the same whatever bytes storage holds (`report_foretells_allocation`): they fail alike, and where
they do not, both are decided by the cursor of the ledger (`Settings.value_report_alone`,
`Settings.value_allocate_alone`).
-/

namespace ReferenceMint

open Storage (Memory.answer Objects)
open Store (LedgerStore tripleOf)
open Numeral (limit64)

/-- What a report says of an allocation that is made instead of it. -/
structure Foretells (capacity : UInt32) (reported : Except AllocationError PortfolioReport)
    (allocated : Except AllocationError Allocation) : Prop where
  /-- There is no report exactly where the allocation fails for the code or for the store, and for
  the same reason. -/
  fails : ∀ e, reported = .error e ↔
    allocated = .error e ∧ (e.kind = .outOfRange ∨ e.kind = .storage)
  /-- Nothing can be issued, says the report, exactly where the allocation finds the space
  exhausted. -/
  exhausted : (∃ r, reported = .ok r ∧ r.exhausted = true) ↔
    ∃ portfolio, allocated = .error (.outOfSpace portfolio)
  /-- Something can be issued, says the report, exactly where the allocation succeeds. -/
  issues : (∃ r, reported = .ok r ∧ r.exhausted = false) ↔ ∃ a, allocated = .ok a
  /-- The allocation then succeeds in its first try, with the claim at the cursor of the report, or
  at the start where there is none. -/
  claims : ∀ r a, reported = .ok r → allocated = .ok a → a.tries = 1 ∧
    ∃ c, (r.active.getD .start).claim capacity = some c ∧ a.triple = tripleOf r.portfolio c

/-! ## What can be foretold -/

/-- The error that a failure below is to the caller is that of a code or of the store. -/
theorem AllocationError.kind_ofFailure_cases (failure : Failure) :
    (ofFailure failure).kind = .outOfRange ∨ (ofFailure failure).kind = .storage := by
  cases failure with
  | outOfRange code min max => exact .inl rfl
  | storage | coding | missing | input | internal => exact .inr rfl

namespace Foretells

variable {capacity : UInt32} {portfolio : PortfolioCode} {r : PortfolioReport}

/-- A report may fail as the allocation does. -/
theorem of_failure (capacity : UInt32) (failure : Failure) :
    Foretells capacity (.error (.ofFailure failure)) (.error (.ofFailure failure)) where
  fails e := by
    constructor
    · intro h
      rw [← Except.error.inj h]
      exact ⟨rfl, AllocationError.kind_ofFailure_cases failure⟩
    · exact fun h => congrArg Except.error (Except.error.inj h.1)
  exhausted := by
    constructor
    · rintro ⟨r, hr, -⟩
      exact absurd hr (by simp)
    · rintro ⟨portfolio, h⟩
      exact absurd (Except.error.inj h) (by cases failure <;> simp [AllocationError.ofFailure])
  issues := by simp
  claims r a hr := absurd hr (by simp)

/-- The report of an exhausted portfolio foretells that its space is exhausted. -/
theorem of_exhausted (hexhausted : r.exhausted = true) :
    Foretells capacity (.ok r) (.error (.outOfSpace portfolio)) where
  fails e := by
    constructor
    · intro h
      exact absurd h (by simp)
    · rintro ⟨h, hkind⟩
      rw [← Except.error.inj h] at hkind
      exact absurd hkind (by simp [AllocationError.kind])
  exhausted := ⟨fun _ => ⟨portfolio, rfl⟩, fun _ => ⟨r, rfl, hexhausted⟩⟩
  issues := by simp [hexhausted]
  claims r' a _ ha := absurd ha (by simp)

/-- The report of any other portfolio foretells the claim at its cursor. -/
theorem of_claim {c : Claim} (hexhausted : r.exhausted = false)
    (hclaim : (r.active.getD .start).claim capacity = some c) :
    Foretells capacity (.ok r) (.ok (.ofClaim r.portfolio c 1)) where
  fails e := by simp
  exhausted := by simp [hexhausted]
  issues := ⟨fun _ => ⟨_, rfl⟩, fun _ => ⟨r, rfl, hexhausted⟩⟩
  claims r' a hr ha := by
    rw [← Except.ok.inj hr, ← Except.ok.inj ha]
    exact ⟨rfl, c, hclaim, rfl⟩

end Foretells

/-! ## Storage that nobody else uses -/

namespace Store.LedgerStore

variable {s : LedgerStore} {portfolio : PortfolioCode} {objects : Objects}

/-- Answers a call on the bucket store from storage that nobody else uses. -/
def alone (s : LedgerStore) (c : Call) (objects : Objects) : Reply c × Objects :=
  (s.answer c).value Memory.answer objects

/-- A program on the store gives on this storage what it gives with these answers. -/
theorem value_program_alone {α : Type} (s : LedgerStore) (p : Program interface α)
    (objects : Objects) : (s.program p).value Memory.answer objects = p.value s.alone objects :=
  Program.value_lower s.answer Memory.answer p objects

/-- The failure to find a cursor is one of the store to the caller. -/
theorem ofFailure_of_active {ledger : Ledger} {failure : Failure}
    (h : ledger.active = .error failure) :
    AllocationError.ofFailure failure = .storage failure := by
  have hkind := kind_of_active h
  cases failure with
  | outOfRange code min max => exact absurd rfl hkind
  | storage | coding | missing | input | internal => rfl

/-- A planned claim is taken, as long as a token can carry the version of the ledger. -/
theorem alone_claim {ledger : Ledger} {active : Option Cursor} {capacity : UInt32} {c : Claim}
    (hheld : s.held portfolio objects = .ok ledger) (hactive : ledger.active = .ok active)
    (hfits : s.timesWritten portfolio objects ≤ limit64)
    (hclaim : (active.getD .start).claim capacity = some c) :
    (s.alone (.claim portfolio (active.getD .start) capacity) objects).1 =
      .ok (.claimed portfolio c) :=
  congrArg Prod.fst (value_claim ⟨hheld, ⟨active, hactive, plan_of_claim hclaim⟩,
    timesWritten_le_iff.mp hfits⟩)

end Store.LedgerStore

namespace Settings

variable {s : LedgerStore} {settings : Settings} {code : Int} {portfolio : PortfolioCode}
  {objects : Objects}

/-- A report tells about the buckets that storage holds, and leaves storage as it is. -/
theorem value_report_alone (hcheck : settings.check code = .ok portfolio) :
    (settings.report code).value s.alone objects =
      ((match s.heldBuckets portfolio objects with
        | .error failure => .error (.ofFailure failure)
        | .ok buckets => settings.reportOn portfolio buckets), objects) := by
  have hbuckets : s.alone (.buckets portfolio) objects =
      (s.heldBuckets portfolio objects, objects) := s.value_buckets portfolio objects
  unfold report
  rw [hcheck]
  simp only [Program.value]
  rw [hbuckets]
  cases s.heldBuckets portfolio objects <;> rfl

/-- A try at the cursor of the ledger that storage holds takes the claim there, or finds the space
exhausted; what would follow a lost race makes no difference. -/
theorem value_tryOnce_alone {ledger : Store.Ledger} {active : Option Cursor}
    (hheld : s.held portfolio objects = .ok ledger) (hactive : ledger.active = .ok active)
    (hfits : s.timesWritten portfolio objects ≤ limit64)
    (lost : Option Cursor → Allocating Allocation) :
    ((settings.tryOnce portfolio 1 (active.getD .start) lost).value s.alone objects).1 =
      match (active.getD .start).claim settings.capacity with
      | none => .error (.outOfSpace portfolio)
      | some c => .ok (.ofClaim portfolio c 1) := by
  cases hclaim : (active.getD .start).claim settings.capacity with
  | none =>
    unfold tryOnce
    rw [hclaim]
    rfl
  | some c =>
    have hreply := Store.LedgerStore.alone_claim hheld hactive hfits hclaim
    rw [value_tryOnce_eq s.alone hclaim]
    generalize s.alone (.claim portfolio (active.getD .start) settings.capacity) objects =
      outcome at hreply ⊢
    obtain ⟨reply, after⟩ := outcome
    obtain rfl : reply = .ok (.claimed portfolio c) := hreply
    rfl

/-- An allocation is decided by its first try, at the cursor of the ledger that storage holds. -/
theorem value_allocate_alone (hcheck : settings.check code = .ok portfolio)
    (hfits : s.timesWritten portfolio objects ≤ limit64) :
    ((settings.allocate code).value s.alone objects).1 =
      match (s.held portfolio objects).bind Store.Ledger.active with
      | .error failure => .error (.ofFailure failure)
      | .ok active => match (active.getD .start).claim settings.capacity with
        | none => .error (.outOfSpace portfolio)
        | some c => .ok (.ofClaim portfolio c 1) := by
  have hactive : s.alone (.active portfolio) objects =
      ((s.held portfolio objects).bind Store.Ledger.active, objects) :=
    s.value_active portfolio objects
  rw [value_allocate_eq]
  unfold allocateOnce
  rw [hcheck]
  simp only [Program.value]
  rw [hactive]
  cases hheld : s.held portfolio objects with
  | error failure => rfl
  | ok ledger =>
    simp only [Except.bind]
    cases hcursor : ledger.active with
    | error failure => rfl
    | ok active =>
      simp only
      -- There may be tries left after the first one.
      cases settings.tries.toNat - 1 with
      | zero => exact value_tryOnce_alone hheld hcursor hfits _
      | succ retries => exact value_tryOnce_alone hheld hcursor hfits _

/-- A report foretells an allocation by the cursor that both find in the ledger. -/
theorem foretells_alone (hcheck : settings.check code = .ok portfolio)
    (hfits : s.timesWritten portfolio objects ≤ limit64) :
    Foretells settings.capacity ((settings.report code).value s.alone objects).1
      ((settings.allocate code).value s.alone objects).1 := by
  rw [value_report_alone hcheck, value_allocate_alone hcheck hfits]
  unfold Store.LedgerStore.heldBuckets
  cases s.held portfolio objects with
  | error failure => exact .of_failure _ failure
  | ok ledger =>
    simp only [Except.map, Except.bind]
    unfold reportOn
    cases hactive : ledger.active with
    | error failure =>
      -- The report calls this a failure of the store by itself.
      have hcursor : Bucket.activeCursor ledger.rows = .error failure := hactive
      rw [hcursor]
      simp only
      rw [← Store.LedgerStore.ofFailure_of_active hactive]
      exact .of_failure _ failure
    | ok active =>
      have hcursor : Bucket.activeCursor ledger.rows = .ok active := hactive
      rw [hcursor]
      simp only
      cases hclaim : (active.getD .start).claim settings.capacity with
      | none => exact .of_exhausted rfl
      | some c => exact .of_claim rfl hclaim

/-- The cursor of a report is the one that the store gives. -/
theorem active_of_report {r : PortfolioReport} (hcheck : settings.check code = .ok portfolio)
    (hreport : ((settings.report code).value s.alone objects).1 = .ok r) :
    (s.alone (.active r.portfolio) objects).1 = .ok r.active := by
  have hactive : s.alone (.active portfolio) objects =
      ((s.held portfolio objects).bind Store.Ledger.active, objects) :=
    s.value_active portfolio objects
  rw [value_report_alone hcheck] at hreport
  unfold Store.LedgerStore.heldBuckets at hreport
  cases hheld : s.held portfolio objects with
  | error failure =>
    rw [hheld] at hreport
    exact absurd hreport (by simp [Except.map])
  | ok ledger =>
    simp only [hheld, Except.map, reportOn] at hreport
    cases hcursor : Bucket.activeCursor ledger.rows with
    | error failure =>
      rw [hcursor] at hreport
      exact absurd hreport (by simp)
    | ok active =>
      rw [hcursor] at hreport
      rw [← Except.ok.inj hreport]
      show (s.alone (.active portfolio) objects).1 = .ok active
      rw [hactive, hheld]
      exact hcursor

end Settings

/-- The rows of a ledger out of order, with two of the highest letter. -/
def shuffledRows : List Bucket := [⟨⟨7⟩, .last, 4⟩, ⟨⟨7⟩, .first, 5⟩, ⟨⟨7⟩, .last, 2⟩]

/-- Storage with this ledger for portfolio seven, and bytes that are no ledger for portfolio
eight. -/
def damagedObjects : Objects :=
  Objects.set [((LedgerStore.mk none .epoch).path ⟨8⟩, ⟨⟨#[123]⟩, 1⟩)]
    ((LedgerStore.mk none .epoch).path ⟨7⟩) ⟨(Store.Ledger.mk ⟨7⟩ shuffledRows .epoch).bytes, 3⟩

/-- Their versions are small. -/
theorem damagedObjects_fits (path : String) (object : Storage.Object)
    (hobject : damagedObjects.get? path = some object) : object.version ≤ limit64 := by
  unfold damagedObjects at hobject
  by_cases hpath : path = (LedgerStore.mk none .epoch).path ⟨7⟩
  · subst hpath
    rw [Objects.get?_set_self] at hobject
    rw [← Option.some.inj hobject]
    show 3 ≤ limit64
    decide
  · rw [Objects.get?_set_ne _ _ hpath] at hobject
    simp only [Objects.get?, List.lookup_cons, List.lookup_nil] at hobject
    split at hobject
    · rw [← Option.some.inj hobject]
      decide
    · exact absurd hobject (by simp)

/-- The rows of portfolio seven can be read. -/
theorem heldBuckets_damagedObjects :
    (LedgerStore.mk none .epoch).heldBuckets ⟨7⟩ damagedObjects = .ok shuffledRows := by
  have hheld : (LedgerStore.mk none .epoch).held ⟨7⟩ damagedObjects =
      .ok ⟨⟨7⟩, shuffledRows, .epoch⟩ := by
    unfold damagedObjects
    exact LedgerStore.held_set rfl (by dsimp only)
  unfold LedgerStore.heldBuckets
  rw [hheld]
  rfl

/-- Those of portfolio eight cannot. -/
theorem exists_failure_of_damagedObjects : ∃ failure,
    (LedgerStore.mk none .epoch).heldBuckets ⟨8⟩ damagedObjects = .error failure := by
  have hne : (LedgerStore.mk none .epoch).path ⟨8⟩ ≠ (LedgerStore.mk none .epoch).path ⟨7⟩ :=
    fun h => absurd (LedgerStore.path_injective h).2 (by decide)
  have hobject : damagedObjects.get? ((LedgerStore.mk none .epoch).path ⟨8⟩) =
      some ⟨⟨#[123]⟩, 1⟩ := by
    unfold damagedObjects
    rw [Objects.get?_set_ne _ _ hne]
    exact List.lookup_cons_self
  have hbytes : Store.Ledger.ofBytes? ⟨#[123]⟩ = none := by decide +kernel
  unfold LedgerStore.heldBuckets
  rw [LedgerStore.held_of_some hobject]
  unfold LedgerStore.decode
  rw [hbytes]
  exact ⟨_, rfl⟩

end ReferenceMint
