import Mathlib.Tactic.Common
import ReferenceMint.Backfill
import ReferenceMint.Proofs.Program

/-!
# Allocations and batches, whatever answers their calls

Spans and counts around an allocation do not matter for its value (`Settings.value_allocate_eq`),
and what a try comes to is decided by the reply to its claim (`Settings.value_tryOnce_eq`). A batch
works off one record after the other: the result for the first one decides how it goes on
(`Settings.value_workOffFrom_cons`), and the entries so far are only written down
(`Settings.value_workOffFrom_entries`). So a batch that halts was stuck at the first record that it
left (`Settings.exists_stuck`). The report says what came of the records
(`Settings.value_backfill_eq`).
-/

namespace ReferenceMint

open Store

namespace Settings

variable {σ : Type} {answer : (c : Call) → σ → Reply c × σ} {s : Settings} {code : Int}
  {portfolio : PortfolioCode} {state after : σ}

/-- The span and the count of failures around an allocation do not matter for its value. -/
theorem value_allocate_eq (answer : (c : Call) → σ → Reply c × σ) (s : Settings) (code : Int)
    (state : σ) :
    (s.allocate code).value answer state = (s.allocateOnce code).value answer state := by
  unfold allocate
  rw [Program.value_bind, Program.value_within]
  generalize (s.allocateOnce code).value answer state = outcome
  obtain ⟨result, after⟩ := outcome
  cases result <;> rfl

/-- What a try comes to is decided by the reply to its claim. -/
theorem value_tryOnce_eq (answer : (c : Call) → σ → Reply c × σ) {observed : Cursor} {c : Claim}
    (hclaim : observed.claim s.capacity = some c) (number : Nat)
    (lost : Option Cursor → Allocating Allocation) (state : σ) :
    (s.tryOnce portfolio number observed lost).value answer state =
      match answer (.claim portfolio observed s.capacity) state with
      | (.error failure, after) => (.error (.ofFailure failure), after)
      | (.ok (.claimed owner c), after) => (.ok (.ofClaim owner c number), after)
      | (.ok (.exhausted _), after) => (.error (.outOfSpace portfolio), after)
      | (.ok (.conflict seen), after) => (lost seen).value answer after := by
  unfold tryOnce
  rw [hclaim]
  simp only [Option.isNone_some, Bool.false_eq_true, if_false, Program.value]
  generalize answer (.claim portfolio observed s.capacity) state = outcome
  obtain ⟨failure | reply, after⟩ := outcome
  · rfl
  · cases reply with
    | claimed owner c => exact Program.value_notes _ _ _ _
    | exhausted cursor => rfl
    | conflict seen => exact Program.value_notes _ _ _ _

/-- A batch goes on after its first record, unless this ends with an error that stops it. -/
theorem value_workOffFrom_cons (answer : (c : Call) → σ → Reply c × σ) (s : Settings)
    (portfolio : PortfolioCode) (record : LegacyRecord) (rest : List LegacyRecord)
    (entries : List BatchEntry) (seen : List Reference) (state : σ) :
    (s.workOffFrom portfolio (record :: rest) entries seen).value answer state =
      match (s.workOff portfolio record seen).value answer state with
      | (.ok (outcome, seen), after) =>
        (s.workOffFrom portfolio rest (⟨record.id, outcome⟩ :: entries) seen).value answer after
      | (.error e, after) =>
        if e.endsBatch then ((entries.reverse, some ⟨record.id, e⟩), after)
        else (s.workOffFrom portfolio rest (⟨record.id, .failed e.message⟩ :: entries) seen).value
          answer after := by
  rw [workOffFrom, Program.value_bind]
  generalize (s.workOff portfolio record seen).value answer state = first
  obtain ⟨e | ⟨outcome, seen⟩, after⟩ := first
  · simp only
    split_ifs <;> rfl
  · rfl

/-- The entries so far come before those of the records that are worked off, and make no other
difference. -/
theorem value_workOffFrom_entries (records : List LegacyRecord) (entries : List BatchEntry)
    (seen : List Reference) (state : σ) :
    (s.workOffFrom portfolio records entries seen).value answer state =
      ((entries.reverse ++ ((s.workOffFrom portfolio records [] seen).value answer state).1.1,
        ((s.workOffFrom portfolio records [] seen).value answer state).1.2),
      ((s.workOffFrom portfolio records [] seen).value answer state).2) := by
  induction records generalizing entries seen state with
  | nil =>
    show ((entries.reverse, none), state) = _
    simp [workOffFrom, Program.value]
  | cons record rest ih =>
    rw [value_workOffFrom_cons, value_workOffFrom_cons]
    generalize (s.workOff portfolio record seen).value answer state = first
    obtain ⟨e | ⟨outcome, seen⟩, after⟩ := first
    · simp only
      split_ifs
      · simp
      · rw [ih, ih [_]]
        simp
    · simp only
      rw [ih, ih [_]]
      simp

/-- A batch that halts has worked off the records before one that ends with an error that stops
it. -/
theorem exists_stuck {records : List LegacyRecord} {entries out : List BatchEntry}
    {seen : List Reference} {halt : BatchHalt}
    (h : (s.workOffFrom portfolio records entries seen).value answer state =
      ((out, some halt), after)) :
    ∃ done stuck rest seen before e, records = done ++ stuck :: rest ∧
      out.length = entries.length + done.length ∧ halt = ⟨stuck.id, e⟩ ∧ e.endsBatch = true ∧
      (s.workOff portfolio stuck seen).value answer before = (.error e, after) := by
  induction records generalizing entries seen state with
  | nil => exact absurd h (by simp [workOffFrom, Program.value])
  | cons record rest ih =>
    -- A record that does not stop the batch adds one entry, and the batch is stuck further on.
    have hlater : ∀ {entry seen state},
        (s.workOffFrom portfolio rest (entry :: entries) seen).value answer state =
          ((out, some halt), after) →
        ∃ done stuck rest' seen before e, record :: rest = done ++ stuck :: rest' ∧
          out.length = entries.length + done.length ∧ halt = ⟨stuck.id, e⟩ ∧ e.endsBatch = true ∧
          (s.workOff portfolio stuck seen).value answer before = (.error e, after) := by
      intro entry seen state h
      obtain ⟨done, stuck, rest', seen, before, e, rfl, hlength, hstuck⟩ := ih h
      refine ⟨record :: done, stuck, rest', seen, before, e, rfl, ?_, hstuck⟩
      rw [hlength, List.length_cons, List.length_cons]
      omega
    rw [value_workOffFrom_cons] at h
    generalize hrecord : (s.workOff portfolio record seen).value answer state = first at h
    obtain ⟨e | ⟨outcome, seen'⟩, middle⟩ := first
    · simp only at h
      split_ifs at h with hends
      · obtain ⟨hresult, rfl⟩ := Prod.mk.inj h
        obtain ⟨rfl, hhalt⟩ := Prod.mk.inj hresult
        exact ⟨[], record, rest, seen, state, e, rfl, by simp, (Option.some.inj hhalt).symm, hends,
          hrecord⟩
      · exact hlater h
    · exact hlater h

/-- The report on a batch. -/
def reportOf (portfolio : PortfolioCode) (records : List LegacyRecord)
    (outcome : List BatchEntry × Option BatchHalt) : BatchReport :=
  ⟨portfolio, outcome.1, records.length - outcome.1.length, outcome.2⟩

/-- A batch for a portfolio in the range gives the report on its records. -/
theorem value_backfill_eq (answer : (c : Call) → σ → Reply c × σ)
    (hcheck : s.check code = .ok portfolio) (records : List LegacyRecord) (state : σ) :
    (s.backfill code records).value answer state =
      (.ok (reportOf portfolio records
        ((s.workOffFrom portfolio records [] []).value answer state).1),
      ((s.workOffFrom portfolio records [] []).value answer state).2) := by
  unfold backfill
  rw [hcheck]
  simp only
  rw [Program.value_bind, Program.value_within]
  rfl

end Settings

end ReferenceMint
