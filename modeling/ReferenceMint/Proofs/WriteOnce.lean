import ReferenceMint.Proofs.Batch.Running
import ReferenceMint.Proofs.Issuing
import ReferenceMint.Proofs.Store.TracedLedger

/-!
# An allocation writes once or not at all

An allocation on traced storage reads, may lose a claim and read again, and so on. However the
controls are set and whatever bytes the ledgers hold, none of this changes an object before the
claim that takes effect, and that claim ends the allocation. So an allocation that succeeds has
written once, to the ledger of its portfolio, and one that fails has changed nothing
(`allocation_writes_once_or_never`). A portfolio code out of range is found before storage is
called.
-/

namespace ReferenceMint.Store.LedgerStore

open Storage (Objects Traced)
open Storage.Traced (Unchanged WroteOnce)

/-- What a claim on traced storage has done: it has written the claim that it replies with into the
ledger that storage held, or it has changed nothing. -/
def ClaimsOnce (s : LedgerStore) (portfolio : PortfolioCode) (before after : Traced) :
    Except Failure ClaimReply → Prop
  | .ok (.claimed owner c) => owner = portfolio ∧ ∃ ledger,
    s.held portfolio before.objects = .ok ledger ∧
    WroteOnce (s.path portfolio) (ledger.record c s.clock).bytes before after
  | .ok _ => Unchanged before after
  | .error failure => Unchanged before after ∧ failure.kind ≠ .outOfRange

/-- What an allocation on traced storage has done: it has written the claim of its triple into the
ledger that storage held, or it has changed nothing. -/
def AllocatesOnce (s : LedgerStore) (portfolio : PortfolioCode) (before after : Traced) :
    Except AllocationError Allocation → Prop
  | .ok a => ∃ ledger c, s.held portfolio before.objects = .ok ledger ∧
    a.triple = tripleOf portfolio c ∧
    WroteOnce (s.path portfolio) (ledger.record c s.clock).bytes before after
  | .error e => Unchanged before after ∧ e.kind ≠ .outOfRange

variable {s : LedgerStore} {portfolio : PortfolioCode}

/-- An allocation may start with something that changes nothing. -/
theorem AllocatesOnce.of_unchanged {before middle after : Traced}
    {result : Except AllocationError Allocation} (h : Unchanged before middle)
    (h' : s.AllocatesOnce portfolio middle after result) :
    s.AllocatesOnce portfolio before after result := by
  cases result with
  | error e => exact ⟨h.trans h'.1, h'.2⟩
  | ok a =>
    obtain ⟨ledger, c, hheld, htriple, hwrote⟩ := h'
    rw [h.objects] at hheld
    exact ⟨ledger, c, hheld, htriple, h.wroteOnce hwrote⟩

/-- A failure that does not speak of a code does not do so to the caller either. -/
theorem kind_ofFailure {failure : Failure} (h : failure.kind ≠ .outOfRange) :
    (AllocationError.ofFailure failure).kind ≠ .outOfRange := by
  cases failure with
  | outOfRange code min max => exact absurd rfl h
  | storage | coding | missing | input | internal => exact fun heq => by cases heq

/-- A failure to decode a ledger does not speak of a code. -/
theorem kind_of_decode {path : String} {data : ByteArray} {failure : Failure}
    (h : decode path portfolio data = .error failure) : failure.kind ≠ .outOfRange := by
  unfold decode at h
  cases hbytes : Ledger.ofBytes? data with
  | none =>
    simp only [hbytes] at h
    rw [← Except.error.inj h]
    simp [Failure.kind]
  | some ledger =>
    simp only [hbytes] at h
    split_ifs at h
    rw [← Except.error.inj h]
    simp [Failure.kind]

/-- A failure to find the cursor of a ledger does not speak of a code. -/
theorem kind_of_active {ledger : Ledger} {failure : Failure} (h : ledger.active = .error failure) :
    failure.kind ≠ .outOfRange := by
  unfold Ledger.active Bucket.activeCursor at h
  cases hbucket : Bucket.active? ledger.rows with
  | none => simp [hbucket] at h
  | some b =>
    simp only [hbucket, Bucket.cursor, Cursor.ofIndex] at h
    split_ifs at h
    · rw [← Except.error.inj h]
      simp [Failure.kind]
    · simp [Except.map] at h

/-- Reading changes nothing, and gives the ledger that storage holds or a failure that does not
speak of a code. -/
theorem value_read_traced (s : LedgerStore) (portfolio : PortfolioCode) (t : Traced) :
    Unchanged t ((s.read portfolio).value Traced.answer t).2 ∧
      ((∃ ledger version, ((s.read portfolio).value Traced.answer t).1 = .ok (ledger, version) ∧
          s.held portfolio t.objects = .ok ledger) ∨
        ∃ failure, ((s.read portfolio).value Traced.answer t).1 = .error failure ∧
          failure.kind ≠ .outOfRange) := by
  obtain ⟨hhead, hinfo⟩ := t.answer_head (s.path portfolio)
  unfold read
  simp only [Program.value]
  rcases hinfo with hinfo | ⟨failure, hinfo, hkind⟩
  · simp only [Storage.interface] at hinfo ⊢
    simp only [hinfo]
    cases hobject : t.objects.get? (s.path portfolio) with
    | none => exact ⟨hhead, .inl ⟨_, _, rfl, held_of_none hobject⟩⟩
    | some object =>
      simp only [Option.map_some, Program.value]
      obtain ⟨hget, hdata⟩ :=
        (Traced.answer (.head (s.path portfolio)) t).2.answer_get (s.path portfolio)
      rw [hhead.objects] at hdata
      rcases hdata with ⟨found, hfound, hdata⟩ | ⟨failure, hdata, hkind⟩
      · obtain rfl : object = found := Option.some.inj (hobject.symm.trans hfound)
        simp only [hdata, Program.value]
        refine ⟨hhead.trans hget, ?_⟩
        cases hdecode : decode (s.path portfolio) portfolio object.data with
        | error failure => exact .inr ⟨failure, rfl, kind_of_decode hdecode⟩
        | ok ledger => exact .inl ⟨ledger, _, rfl, (held_of_some hobject).trans hdecode⟩
      · simp only [hdata, Program.value]
        exact ⟨hhead.trans hget, .inr ⟨failure, rfl, hkind⟩⟩
  · simp only [Storage.interface] at hinfo ⊢
    simp only [hinfo, Program.value]
    exact ⟨hhead, .inr ⟨failure, rfl, hkind⟩⟩

/-- Asking for the cursor changes nothing. -/
theorem value_active_traced (s : LedgerStore) (portfolio : PortfolioCode) (t : Traced) :
    Unchanged t ((s.answer (.active portfolio)).value Traced.answer t).2 ∧
      ∀ failure, ((s.answer (.active portfolio)).value Traced.answer t).1 = .error failure →
        failure.kind ≠ .outOfRange := by
  obtain ⟨hread, hresult⟩ := value_read_traced s portfolio t
  unfold LedgerStore.answer Program.map
  rw [Program.value_bind Traced.answer (s.read portfolio)]
  refine ⟨hread, fun failure hfailure => ?_⟩
  rcases hresult with ⟨ledger, version, hok, -⟩ | ⟨other, herror, hkind⟩
  · rw [hok] at hfailure
    exact kind_of_active hfailure
  · rw [herror] at hfailure
    obtain rfl : other = failure := Except.error.inj hfailure
    exact hkind

/-- Writing a claim into a ledger writes once, or changes nothing. -/
theorem value_commit_traced (s : LedgerStore) (portfolio : PortfolioCode) {ledger : Ledger}
    (version : Option String) (c : Claim) {t : Traced}
    (hheld : s.held portfolio t.objects = .ok ledger) :
    s.ClaimsOnce portfolio t ((s.commit portfolio ledger version c).value Traced.answer t).2
      ((s.commit portfolio ledger version c).value Traced.answer t).1 := by
  unfold commit
  -- The bytes are named, since they would be computed where writes are compared.
  generalize hdata : (ledger.record c s.clock).bytes = data
  simp only [Program.value]
  rcases t.answer_put (s.path portfolio) data (demand version) with
    ⟨token, hreply, hwrote⟩ | ⟨hsame, ⟨current, hreply⟩ | ⟨failure, hreply, hkind⟩⟩
  · simp only [Storage.interface] at hreply ⊢
    simp only [hreply, Program.log, Program.value]
    refine ⟨rfl, ledger, hheld, ?_⟩
    rw [hdata]
    exact hwrote
  · simp only [Storage.interface] at hreply ⊢
    simp only [hreply, Program.log, Program.value]
    exact hsame
  · simp only [Storage.interface] at hreply ⊢
    simp only [hreply, Program.value]
    exact ⟨hsame, hkind⟩

/-- A claim may start with something that changes nothing. -/
theorem ClaimsOnce.of_unchanged {before middle after : Traced} {result : Except Failure ClaimReply}
    (h : Unchanged before middle) (h' : s.ClaimsOnce portfolio middle after result) :
    s.ClaimsOnce portfolio before after result := by
  rcases result with failure | reply
  · exact ⟨h.trans h'.1, h'.2⟩
  · cases reply with
    | claimed owner c =>
      obtain ⟨howner, ledger, hheld, hwrote⟩ := h'
      rw [h.objects] at hheld
      exact ⟨howner, ledger, hheld, h.wroteOnce hwrote⟩
    | conflict observed => exact h.trans h'
    | exhausted observed => exact h.trans h'

/-- A claim writes once if it takes effect, and otherwise changes nothing. -/
theorem value_claim_traced (s : LedgerStore) (portfolio : PortfolioCode) (expected : Cursor)
    (capacity : UInt32) (t : Traced) :
    s.ClaimsOnce portfolio t ((s.claim portfolio expected capacity).value Traced.answer t).2
      ((s.claim portfolio expected capacity).value Traced.answer t).1 := by
  obtain ⟨hread, hresult⟩ := value_read_traced s portfolio t
  unfold claim
  rw [Program.value_bind Traced.answer (s.read portfolio)]
  rcases hresult with ⟨ledger, version, hok, hheld⟩ | ⟨failure, herror, hkind⟩
  · rw [hok]
    -- The read has left the ledger where it was.
    rw [← hread.objects] at hheld
    apply ClaimsOnce.of_unchanged hread
    cases hactive : ledger.active with
    | error failure =>
      simp only [hactive, Program.value]
      exact ⟨.refl _, kind_of_active hactive⟩
    | ok active =>
      simp only [hactive]
      cases hplan : plan (active.getD .start) expected capacity with
      | error outcome =>
        have hclaimed := isClaimed_of_plan hplan
        simp only [Program.value]
        cases outcome with
        | claimed owner c => exact absurd hclaimed (by simp [ClaimReply.isClaimed])
        | conflict observed => exact .refl _
        | exhausted observed => exact .refl _
      | ok c => exact value_commit_traced s portfolio version c hheld
  · rw [herror]
    exact ⟨hread, hkind⟩

/-- A call of a program on the store is answered, and then the program goes on. -/
theorem value_program_call {α : Type} (c : Call) (next : Reply c → Program interface α)
    (t : Traced) : (s.program (.call c next)).value Traced.answer t =
      (s.program (next ((s.answer c).value Traced.answer t).1)).value Traced.answer
        ((s.answer c).value Traced.answer t).2 :=
  Program.value_bind Traced.answer (s.answer c) _ t

/-- A try writes once and ends, or it changes nothing and what follows writes at most once. -/
theorem value_tryOnce_traced (settings : Settings) (number : Nat) (observed : Cursor)
    (lost : Option Cursor → Allocating Allocation) (t : Traced)
    (hlost : ∀ seen t, s.AllocatesOnce portfolio t ((s.program (lost seen)).value Traced.answer t).2
      ((s.program (lost seen)).value Traced.answer t).1) :
    s.AllocatesOnce portfolio t
      ((s.program (settings.tryOnce portfolio number observed lost)).value Traced.answer t).2
      ((s.program (settings.tryOnce portfolio number observed lost)).value Traced.answer t).1 := by
  unfold Settings.tryOnce
  split_ifs
  · exact ⟨.refl t, fun h => by cases h⟩
  · have hclaim : s.ClaimsOnce portfolio t
        ((s.answer (.claim portfolio observed settings.capacity)).value Traced.answer t).2
        ((s.answer (.claim portfolio observed settings.capacity)).value Traced.answer t).1 :=
      value_claim_traced s portfolio observed settings.capacity t
    rw [value_program_call]
    generalize (s.answer (.claim portfolio observed settings.capacity)).value Traced.answer t =
      outcome at hclaim ⊢
    obtain ⟨result, t'⟩ := outcome
    rcases result with failure | reply
    · exact ⟨hclaim.1, kind_ofFailure hclaim.2⟩
    · cases reply with
      | claimed owner c =>
        obtain ⟨rfl, ledger, hheld, hwrote⟩ := hclaim
        rw [program_notes, Program.value_notes]
        exact ⟨ledger, c, hheld, rfl, hwrote⟩
      | conflict seen =>
        rw [program_notes, Program.value_notes]
        exact (hlost seen t').of_unchanged hclaim
      | exhausted cursor => exact ⟨hclaim, fun h => by cases h⟩

/-- All tries of an allocation together write at most once, and only the last one does. -/
theorem value_tryClaim_traced (settings : Settings) (retries number : Nat) (observed : Cursor)
    (t : Traced) : s.AllocatesOnce portfolio t
      ((s.program (settings.tryClaim portfolio retries number observed)).value Traced.answer t).2
      ((s.program (settings.tryClaim portfolio retries number observed)).value
        Traced.answer t).1 := by
  induction retries generalizing number observed t with
  | zero =>
    unfold Settings.tryClaim
    apply value_tryOnce_traced
    intro seen t
    exact ⟨.refl t, fun h => by cases h⟩
  | succ retries ih =>
    unfold Settings.tryClaim
    apply value_tryOnce_traced
    intro seen t
    cases seen with
    | some cursor => exact ih _ _ t
    | none =>
      obtain ⟨hsame, hkind⟩ := value_active_traced s portfolio t
      rw [value_program_call]
      generalize (s.answer (.active portfolio)).value Traced.answer t = outcome at hsame hkind ⊢
      obtain ⟨result, t'⟩ := outcome
      rcases result with failure | active
      · exact ⟨hsame, kind_ofFailure (hkind failure rfl)⟩
      · exact (ih _ _ t').of_unchanged hsame

/-- The span and the count of failures around an allocation do not matter for its value. -/
theorem value_allocate (settings : Settings) (code : Int) (t : Traced) :
    (s.program (settings.allocate code)).value Traced.answer t =
      (s.program (settings.allocateOnce code)).value Traced.answer t := by
  rw [value_program, value_program, Settings.value_allocate_eq]

/-- An allocation for a portfolio in range writes once if it succeeds, and otherwise changes
nothing. -/
theorem value_allocate_traced (settings : Settings) {code : Int}
    (hcheck : settings.check code = .ok portfolio) (t : Traced) :
    s.AllocatesOnce portfolio t
      ((s.program (settings.allocate code)).value Traced.answer t).2
      ((s.program (settings.allocate code)).value Traced.answer t).1 := by
  obtain ⟨hsame, hkind⟩ := value_active_traced s portfolio t
  rw [value_allocate]
  unfold Settings.allocateOnce
  simp only [hcheck]
  rw [value_program_call]
  generalize (s.answer (.active portfolio)).value Traced.answer t = outcome at hsame hkind ⊢
  obtain ⟨result, t'⟩ := outcome
  rcases result with failure | active
  · exact ⟨hsame, kind_ofFailure (hkind failure rfl)⟩
  · exact (value_tryClaim_traced settings _ _ _ t').of_unchanged hsame

/-- An allocation for a code out of range makes no call. -/
theorem calls_allocate_of_error (settings : Settings) {code : Int} {e : AllocationError}
    (hcheck : settings.check code = .error e) (t : Traced) :
    (s.program (settings.allocate code)).calls Traced.answer t = [] ∧
      (s.program (settings.allocate code)).value Traced.answer t = (.error e, t) := by
  unfold Settings.allocate Settings.allocateOnce
  rw [hcheck]
  exact ⟨rfl, rfl⟩

end ReferenceMint.Store.LedgerStore

namespace ReferenceMint

open Store (LedgerStore tripleOf)
open Storage (Operation Traced rewritten)

/-- Settings that try up to four times, with room for five sequences under each letter. -/
def settingsOfFourTries : Settings where
  registry := .standard
  layout := ⟨2, by decide, by decide⟩
  capacity := 5
  tries := 4
  capacity_pos := by decide
  capacity_le := by decide
  tries_pos := by decide

/-- Empty storage on which the next conditional put loses its race. -/
def contendedOnce : Traced := { Traced.empty with racesToLose := 1 }

end ReferenceMint
