import ReferenceMint.Proofs.Batch.Running
import ReferenceMint.Proofs.Batch.Steps
import ReferenceMint.Proofs.Store.Steadiness

/-!
# What a halted batch has left

A batch that halts leaves the record that it was stuck at and all the others behind it. On a steady
store the reason stays: where a record without a text was stuck, no claim at the cursor takes effect
any more (`Settings.barred_of_workOff`), and where one with a text was stuck, the buckets cannot be
read (`Settings.unreadable_of_workOff`). So of the records that were left, those of the same kind
get nothing, whatever is tried with them alone.

A record with a text needs no claim, though. Behind a record that found the space exhausted, or
could not write, it would keep its reference, if the buckets can be read and the reference is
recognized (`Settings.halted_batch_leaves`).
-/

namespace ReferenceMint

open Storage (Traced)
open Store

namespace Settings

variable {σ : Type} {answer : (c : Call) → σ → Reply c × σ} {alike : σ → σ → Prop} {s : Settings}
  {code : Int} {portfolio : PortfolioCode} {t u : σ} {e : AllocationError} {record : LegacyRecord}
  {seen : List Reference} {text : String}

/-! ## Allocations -/

/-- In a state that is as good as this one, no claim at the cursor takes effect: the cursor cannot
be read, there is nothing to claim at it, or the claim fails. -/
def Barred (s : Settings) (answer : (c : Call) → σ → Reply c × σ) (alike : σ → σ → Prop)
    (portfolio : PortfolioCode) (t : σ) : Prop :=
  ∀ active, (answer (.active portfolio) t).1 = .ok active →
    ∀ c, (active.getD .start).claim s.capacity = some c → ∀ u, alike t u →
      ∃ failure, (answer (.claim portfolio (active.getD .start) s.capacity) u).1 = .error failure

/-- Where claims are barred, a try at the cursor fails. -/
theorem Barred.value_tryOnce (h : s.Barred answer alike portfolio t) {active : Option Cursor}
    (hactive : (answer (.active portfolio) t).1 = .ok active) (halike : alike t u) (number : Nat)
    (lost : Option Cursor → Allocating Allocation) : ∃ e after,
      (s.tryOnce portfolio number (active.getD .start) lost).value answer u =
        (.error e, after) := by
  cases hclaim : (active.getD .start).claim s.capacity with
  | none =>
    unfold tryOnce
    rw [hclaim]
    exact ⟨_, _, rfl⟩
  | some c =>
    obtain ⟨failure, hfails⟩ := h active hactive c hclaim u halike
    rw [value_tryOnce_eq answer hclaim]
    generalize answer (.claim portfolio (active.getD .start) s.capacity) u = outcome at hfails ⊢
    obtain ⟨result, after⟩ := outcome
    obtain rfl : result = .error failure := hfails
    exact ⟨_, _, rfl⟩

/-- Where claims are barred, an allocation fails. -/
theorem Barred.value_allocate (h : s.Barred answer alike portfolio t)
    (hsteady : Steady answer alike) (hcheck : s.check code = .ok portfolio) :
    ∃ e after, (s.allocate code).value answer t = (.error e, after) := by
  have hafter := hsteady.after_active t portfolio
  rw [value_allocate_eq]
  unfold allocateOnce
  rw [hcheck]
  simp only [Program.value]
  generalize hactive : answer (.active portfolio) t = read at hafter ⊢
  obtain ⟨failure | active, u⟩ := read
  · exact ⟨_, _, rfl⟩
  · have hread : (answer (.active portfolio) t).1 = .ok active := congrArg Prod.fst hactive
    show ∃ e after, (s.tryClaim portfolio (s.tries.toNat - 1) 1 (active.getD .start)).value
      answer u = (.error e, after)
    -- Already the first try is the last one.
    cases s.tries.toNat - 1 with
    | zero => exact h.value_tryOnce hread hafter 1 _
    | succ retries => exact h.value_tryOnce hread hafter 1 _

/-- A try that ends with an error leaves claims barred, unless it has lost its race and the error is
that of what follows. -/
theorem barred_or_lost_of_tryOnce (hsteady : Steady answer alike) {active : Option Cursor}
    (hactive : (answer (.active portfolio) t).1 = .ok active) {number : Nat}
    {lost : Option Cursor → Allocating Allocation} {after : σ}
    (hvalue : (s.tryOnce portfolio number (active.getD .start) lost).value answer t =
      (.error e, after)) :
    s.Barred answer alike portfolio after ∨
      ∃ u, alike t u ∧ (lost none).value answer u = (.error e, after) := by
  cases hclaim : (active.getD .start).claim s.capacity with
  | none =>
    unfold tryOnce at hvalue
    rw [hclaim] at hvalue
    obtain rfl : t = after := congrArg Prod.snd hvalue
    left
    intro other hother c hc
    rw [Except.ok.inj (hother.symm.trans hactive), hclaim] at hc
    exact absurd hc (by simp)
  | some c =>
    rw [value_tryOnce_eq answer hclaim] at hvalue
    have hattempt := hsteady.attempt hactive hclaim
    generalize answer (.claim portfolio (active.getD .start) s.capacity) t = outcome
      at hattempt hvalue
    cases hattempt with
    | claimed => exact absurd hvalue (by simp)
    | lost u halike => exact .inr ⟨u, halike, hvalue⟩
    | failed failure u halike hpersists =>
      obtain rfl : u = after := congrArg Prod.snd hvalue
      left
      intro other hother c' _ v hv
      rw [hsteady.active halike] at hother
      obtain rfl : other = active := Except.ok.inj (hother.symm.trans hactive)
      exact hpersists v (hsteady.trans halike hv)

/-- Tries that end with an error that stops a batch leave claims barred. -/
theorem barred_of_tryClaim (hsteady : Steady answer alike) {active : Option Cursor}
    (hactive : (answer (.active portfolio) t).1 = .ok active) {retries number : Nat} {after : σ}
    (hvalue : (s.tryClaim portfolio retries number (active.getD .start)).value answer t =
      (.error e, after)) (hends : e.endsBatch = true) : s.Barred answer alike portfolio after := by
  induction retries generalizing number t with
  | zero =>
    unfold tryClaim at hvalue
    rcases barred_or_lost_of_tryOnce hsteady hactive hvalue with hbarred | ⟨u, -, hspent⟩
    · exact hbarred
    · -- Spent tries do not stop a batch.
      obtain rfl := Except.error.inj (congrArg Prod.fst hspent)
      exact absurd hends (by simp [AllocationError.endsBatch])
  | succ retries ih =>
    unfold tryClaim at hvalue
    rcases barred_or_lost_of_tryOnce hsteady hactive hvalue with hbarred | ⟨u, halike, hagain⟩
    · exact hbarred
    · -- The cursor is read anew, and it is the same.
      have hread : (answer (.active portfolio) u).1 = .ok active :=
        (hsteady.active halike portfolio).trans hactive
      have hstill := hsteady.active (hsteady.after_active u portfolio) portfolio
      simp only [Program.value] at hagain
      generalize answer (.active portfolio) u = outcome at hread hstill hagain
      obtain ⟨result, v⟩ := outcome
      obtain rfl : result = .ok active := hread
      exact ih hstill hagain

/-- An allocation that ends with an error that stops a batch leaves claims barred. -/
theorem barred_of_allocate (hsteady : Steady answer alike) (hcheck : s.check code = .ok portfolio)
    {after : σ} (hvalue : (s.allocate code).value answer t = (.error e, after))
    (hends : e.endsBatch = true) : s.Barred answer alike portfolio after := by
  have hstill := hsteady.active (hsteady.after_active t portfolio) portfolio
  rw [value_allocate_eq] at hvalue
  unfold allocateOnce at hvalue
  rw [hcheck] at hvalue
  simp only [Program.value] at hvalue
  generalize answer (.active portfolio) t = outcome at hstill hvalue
  obtain ⟨failure | active, u⟩ := outcome
  · obtain rfl : u = after := congrArg Prod.snd hvalue
    intro active hactive
    exact absurd (hstill.symm.trans hactive) (by simp)
  · exact barred_of_tryClaim hsteady hstill hvalue hends

/-! ## Records -/

/-- A record without a text that stops a batch leaves claims barred. -/
theorem barred_of_workOff (hsteady : Steady answer alike) (hcheck : s.check code = .ok portfolio)
    (hblank : record.carried = none) {after : σ}
    (hvalue : (s.workOff portfolio record seen).value answer t = (.error e, after))
    (hends : e.endsBatch = true) : s.Barred answer alike portfolio after := by
  rw [workOff_of_none hblank] at hvalue
  unfold assign issue at hvalue
  rw [Program.value_map, Program.value_map] at hvalue
  generalize hallocate : (s.allocate portfolio.number.toNat).value answer t = outcome at hvalue
  obtain ⟨failure | allocation, u⟩ := outcome
  · obtain rfl : u = after := congrArg Prod.snd hvalue
    obtain rfl : failure = e := Except.error.inj (congrArg Prod.fst hvalue)
    exact barred_of_allocate hsteady (check_number hcheck) hallocate hends
  · -- A reference that cannot be written does not stop a batch.
    simp only at hvalue
    cases hwrite : s.layout.write allocation.triple with
    | ok r =>
      rw [hwrite] at hvalue
      exact nomatch hvalue
    | error cause =>
      rw [hwrite] at hvalue
      obtain rfl := Except.error.inj (congrArg Prod.fst hvalue)
      exact absurd hends (by simp [AllocationError.endsBatch])

/-- Where claims are barred, a record without a text is not worked off. -/
theorem Barred.value_workOff (h : s.Barred answer alike portfolio t) (hsteady : Steady answer alike)
    (hcheck : s.check code = .ok portfolio) (hblank : record.carried = none)
    (seen : List Reference) :
    ∃ e after, (s.workOff portfolio record seen).value answer t = (.error e, after) := by
  obtain ⟨e, after, hvalue⟩ := h.value_allocate hsteady (check_number hcheck)
  refine ⟨e, after, ?_⟩
  rw [workOff_of_none hblank]
  unfold assign issue
  rw [Program.value_map, Program.value_map, hvalue]
  rfl

/-- A record with a text that stops a batch leaves buckets that cannot be read. -/
theorem unreadable_of_workOff (hsteady : Steady answer alike) (htext : record.carried = some text)
    {after : σ} (hvalue : (s.workOff portfolio record seen).value answer t = (.error e, after))
    (rows : List Bucket) : (answer (.buckets portfolio) after).1 ≠ .ok rows := by
  rw [workOff_of_some htext] at hvalue
  rcases value_checkReference answer s portfolio text seen t with
    ⟨-, reason, hfailed⟩ | ⟨triple, -, -, hdecided⟩
  · exact nomatch hvalue.symm.trans hfailed
  · obtain ⟨hresult, rfl⟩ := Prod.mk.inj (hvalue.symm.trans hdecided)
    intro hrows
    rw [(hsteady.buckets (hsteady.after_buckets t portfolio) portfolio rows).mp hrows] at hresult
    exact nomatch hresult

/-- Alone, a text that is recognized in buckets that can be read is kept. -/
theorem workOff_of_recognized (htext : record.carried = some text) {rows : List Bucket}
    (hrows : (answer (.buckets portfolio) t).1 = .ok rows)
    (hrecognized : s.Recognizes portfolio rows text) :
    ∃ after, (s.workOff portfolio record []).value answer t =
      (.ok (.kept ⟨text⟩, [⟨text⟩]), after) := by
  rw [workOff_of_some htext]
  rcases value_checkReference answer s portfolio text [] t with
    ⟨hunknown, -⟩ | ⟨triple, hread, howner, hdecided⟩
  · exact absurd hrecognized (hunknown rows)
  · have hissued := (recognizes_of_read hread howner).mp hrecognized
    rw [hdecided, hrows, decided_of_issued hissued List.not_mem_nil]
    exact ⟨_, rfl⟩

/-- Any other text fails, or it stops the batch. -/
theorem workOff_of_unrecognized (htext : record.carried = some text)
    (hunknown : ∀ rows, (answer (.buckets portfolio) t).1 = .ok rows →
      ¬ s.Recognizes portfolio rows text) :
    (∃ e after, (s.workOff portfolio record []).value answer t = (.error e, after)) ∨
      ∃ reason after, (s.workOff portfolio record []).value answer t =
        (.ok (.failed reason, []), after) := by
  rw [workOff_of_some htext]
  rcases value_checkReference answer s portfolio text [] t with
    ⟨-, reason, hfailed⟩ | ⟨triple, hread, howner, hdecided⟩
  · exact .inr ⟨reason, t, hfailed⟩
  · cases hreply : (answer (.buckets portfolio) t).1 with
    | error failure =>
      left
      rw [hdecided, hreply]
      exact ⟨_, _, rfl⟩
    | ok rows =>
      obtain ⟨reason, hfailed⟩ := decided_of_not_issued fun h =>
        hunknown rows hreply ((recognizes_of_read hread howner).mpr h.1)
      right
      rw [hdecided, hreply, hfailed]
      exact ⟨reason, _, rfl⟩

/-! ## Batches of one record -/

/-- A batch of the record alone neither assigns nor keeps a reference. -/
def GainsNothing (s : Settings) (answer : (c : Call) → σ → Reply c × σ) (code : Int)
    (record : LegacyRecord) (t : σ) : Prop :=
  ∃ report after, (s.backfill code [record]).value answer t = (.ok report, after) ∧
    report.assigned = 0 ∧ report.kept = 0

/-- A batch of the record alone keeps its reference. -/
def KeepsReference (s : Settings) (answer : (c : Call) → σ → Reply c × σ) (code : Int)
    (record : LegacyRecord) (t : σ) : Prop :=
  ∃ report after, (s.backfill code [record]).value answer t = (.ok report, after) ∧
    report.assigned = 0 ∧ report.kept = 1

/-- Alone, a record that ends with an error gains nothing. -/
theorem gainsNothing_of_error (hcheck : s.check code = .ok portfolio)
    (h : ∃ e after, (s.workOff portfolio record []).value answer t = (.error e, after)) :
    s.GainsNothing answer code record t := by
  obtain ⟨e, after, hvalue⟩ := h
  refine ⟨_, _, value_backfill_eq answer hcheck [record] t, ?_⟩
  rw [value_workOffFrom_cons, hvalue]
  simp only
  split_ifs <;> exact ⟨rfl, rfl⟩

/-- Alone, a record that fails gains nothing. -/
theorem gainsNothing_of_failed (hcheck : s.check code = .ok portfolio)
    (h : ∃ reason after, (s.workOff portfolio record []).value answer t =
      (.ok (.failed reason, []), after)) : s.GainsNothing answer code record t := by
  obtain ⟨reason, after, hvalue⟩ := h
  refine ⟨_, _, value_backfill_eq answer hcheck [record] t, ?_⟩
  rw [value_workOffFrom_cons, hvalue]
  exact ⟨rfl, rfl⟩

/-- What the records get that a halted batch has left, each alone in the state that it has left. -/
structure Leaves (s : Settings) (answer : (c : Call) → σ → Reply c × σ) (code : Int)
    (portfolio : PortfolioCode) (stuck record : LegacyRecord) (t : σ) : Prop where
  /-- A record gains nothing that carries a text like the one the batch was stuck at, or like it
  carries none. -/
  same_kind : record.carried.isSome = stuck.carried.isSome → s.GainsNothing answer code record t
  /-- A text is kept that is recognized in buckets that can be read. -/
  recognized : ∀ text rows, record.carried = some text →
    (answer (.buckets portfolio) t).1 = .ok rows → s.Recognizes portfolio rows text →
    s.KeepsReference answer code record t
  /-- Any other text gains nothing. -/
  unrecognized : ∀ text, record.carried = some text →
    (∀ rows, (answer (.buckets portfolio) t).1 = .ok rows → ¬ s.Recognizes portfolio rows text) →
    s.GainsNothing answer code record t

/-- A batch that was stuck at a record leaves nothing for those of the same kind. -/
theorem leaves_of_stuck (hsteady : Steady answer alike) (hcheck : s.check code = .ok portfolio)
    {stuck : LegacyRecord} {after : σ}
    (hvalue : (s.workOff portfolio stuck seen).value answer t = (.error e, after))
    (hends : e.endsBatch = true) (record : LegacyRecord) :
    s.Leaves answer code portfolio stuck record after := by
  have hunknown : ∀ text, record.carried = some text →
      (∀ rows, (answer (.buckets portfolio) after).1 = .ok rows →
        ¬ s.Recognizes portfolio rows text) → s.GainsNothing answer code record after := by
    intro text htext hunrecognized
    rcases workOff_of_unrecognized htext hunrecognized with herror | hfailed
    · exact gainsNothing_of_error hcheck herror
    · exact gainsNothing_of_failed hcheck hfailed
  refine ⟨fun hkind => ?_, fun text rows htext hrows hrecognized => ?_, hunknown⟩
  · cases hstuck : stuck.carried with
    | none =>
      rw [hstuck, Option.isSome_none, Option.isSome_eq_false_iff,
        Option.isNone_iff_eq_none] at hkind
      have hbarred := barred_of_workOff hsteady hcheck hstuck hvalue hends
      exact gainsNothing_of_error hcheck (hbarred.value_workOff hsteady hcheck hkind [])
    | some text =>
      rw [hstuck, Option.isSome_some] at hkind
      obtain ⟨text', htext⟩ := Option.isSome_iff_exists.mp hkind
      exact hunknown text' htext fun rows hrows =>
        absurd hrows (unreadable_of_workOff hsteady hstuck hvalue rows)
  · obtain ⟨last, hkept⟩ := workOff_of_recognized htext hrows hrecognized
    refine ⟨_, _, value_backfill_eq answer hcheck [record] after, ?_⟩
    rw [value_workOffFrom_cons, hkept]
    exact ⟨rfl, rfl⟩

/-! ## Halted batches -/

section Halted

variable {records : List LegacyRecord} {report : BatchReport} {halt : BatchHalt} {after : σ}

/-- A batch that halts was stuck at the first record that it left. -/
theorem stuck_of_halted (hvalue : (s.backfill code records).value answer t = (.ok report, after))
    (hhalt : report.halted = some halt) :
    s.check code = .ok report.portfolio ∧ ∃ stuck seen before e,
      records[report.entries.length]? = some stuck ∧ halt.id = stuck.id ∧ e.endsBatch = true ∧
      (s.workOff report.portfolio stuck seen).value answer before = (.error e, after) := by
  cases hcheck : s.check code with
  | error e =>
    unfold backfill at hvalue
    rw [hcheck] at hvalue
    exact nomatch hvalue
  | ok portfolio =>
    rw [value_backfill_eq answer hcheck] at hvalue
    generalize hrun : (s.workOffFrom portfolio records [] []).value answer t = run at hvalue
    obtain ⟨⟨entries, halted⟩, last⟩ := run
    obtain ⟨hreport, rfl⟩ := Prod.mk.inj hvalue
    obtain rfl := Except.ok.inj hreport
    obtain rfl : halted = some halt := hhalt
    obtain ⟨done, stuck, rest, seen, before, e, rfl, hlength, rfl, hends, hstuck⟩ :=
      exists_stuck hrun
    rw [List.length_nil, Nat.zero_add] at hlength
    refine ⟨rfl, stuck, seen, before, e, ?_, rfl, hends, hstuck⟩
    show (done ++ stuck :: rest)[entries.length]? = some stuck
    rw [hlength, List.getElem?_append_right (Nat.le_refl _), Nat.sub_self]
    rfl

/-- If a batch halts, it was stuck at the first record that it has left, and of all that it has left
those of the same kind gain nothing. -/
def LeavesBehind (s : Settings) (answer : (c : Call) → σ → Reply c × σ) (code : Int)
    (records : List LegacyRecord) (t : σ) : Prop :=
  ∀ report halt after, (s.backfill code records).value answer t = (.ok report, after) →
    report.halted = some halt → ∃ stuck, records[report.entries.length]? = some stuck ∧
      halt.id = stuck.id ∧ ∀ record ∈ records.drop report.entries.length,
        s.Leaves answer code report.portfolio stuck record after

/-- On a steady store this is so. -/
theorem leavesBehind (hsteady : Steady answer alike) (s : Settings) (code : Int)
    (records : List LegacyRecord) (t : σ) : s.LeavesBehind answer code records t := by
  intro report halt after hvalue hhalt
  obtain ⟨hcheck, stuck, seen, before, e, hrecord, hid, hends, hstuck⟩ :=
    stuck_of_halted hvalue hhalt
  exact ⟨stuck, hrecord, hid, fun record _ => leaves_of_stuck hsteady hcheck hstuck hends record⟩

end Halted

/-- On ledgers, a halted batch leaves nothing for any record without a text: where the buckets
cannot be read, the cursor cannot either. -/
theorem gainsNothing_of_halted {store : LedgerStore} {records : List LegacyRecord}
    {report : BatchReport} {halt : BatchHalt} {t after : Traced}
    (hvalue : (s.backfill code records).value store.onTraced t = (.ok report, after))
    (hhalt : report.halted = some halt) (hblank : record.carried = none) :
    s.GainsNothing store.onTraced code record after := by
  obtain ⟨hcheck, stuck, seen, before, e, -, -, hends, hstuck⟩ := stuck_of_halted hvalue hhalt
  have hbarred : s.Barred store.onTraced Traced.Alike report.portfolio after := by
    cases hcarried : stuck.carried with
    | none => exact barred_of_workOff store.steady_onTraced hcheck hcarried hstuck hends
    | some text =>
      intro active hactive
      have hunreadable := unreadable_of_workOff store.steady_onTraced hcarried hstuck
      exact absurd hactive (LedgerStore.active_onTraced_of_unreadable hunreadable active)
  exact gainsNothing_of_error hcheck
    (hbarred.value_workOff store.steady_onTraced hcheck hblank [])

/-- Whatever the store, its faults and the records are: where a batch halts, the first record that
it has left is the one that stopped it, and in the state it has left, each alone, all records of its
kind gain nothing, with or without a text. A record with a text keeps its reference, though, exactly
if the buckets can be read and the reference is recognized. On ledgers, records without a text gain
nothing whatever has stopped the batch. -/
theorem halted_batch_leaves (s : Settings) (code : Int) (records : List LegacyRecord) :
    (∀ (store : LedgerStore) (t : Traced), s.LeavesBehind store.onTraced code records t ∧
      ∀ report halt after, (s.backfill code records).value store.onTraced t = (.ok report, after) →
        report.halted = some halt → ∀ record ∈ records.drop report.entries.length,
          record.carried = none → s.GainsNothing store.onTraced code record after) ∧
    (∀ db, s.LeavesBehind SharedDatabase.answer code records db) ∧
    ∀ db, s.LeavesBehind Database.answerReadOnly code records db := by
  refine ⟨fun store t => ⟨?_, ?_⟩, fun db => ?_, fun db => ?_⟩
  · exact leavesBehind store.steady_onTraced s code records t
  · intro report halt after hvalue hhalt record _ hblank
    exact gainsNothing_of_halted hvalue hhalt hblank
  · exact leavesBehind SharedDatabase.steady_answer s code records db
  · exact leavesBehind Database.steady_answerReadOnly s code records db

/-- Empty storage on which every write fails. -/
def unwritable : Traced :=
  { Traced.empty with faults := { Storage.Faults.none with writes := true } }

/-- Two records without a text, and one with a text that is no reference. -/
def twoBlankAndNone : List LegacyRecord := [⟨"a", none⟩, ⟨"b", none⟩, ⟨"c", some "?"⟩]

/-- Where nothing can be written, a batch halts at its first record, and leaves nothing for the
others. -/
theorem halted_batch_leaves_unwritable :
    ∃ report halt after, ((ofOneDigit 3 (by decide)).backfill 7 twoBlankAndNone).value
        (LedgerStore.mk none .epoch).onTraced unwritable = (.ok report, after) ∧
      report.halted = some halt ∧
      (ofOneDigit 3 (by decide)).GainsNothing (LedgerStore.mk none .epoch).onTraced 7
        ⟨"b", none⟩ after ∧
      ∃ stuck, (ofOneDigit 3 (by decide)).Leaves (LedgerStore.mk none .epoch).onTraced 7
        report.portfolio stuck ⟨"c", some "?"⟩ after := by
  have hresult : (((ofOneDigit 3 (by decide)).backfill 7 twoBlankAndNone).value
      (LedgerStore.mk none .epoch).onTraced unwritable).1 =
      .ok ⟨⟨7⟩, [], 3, some ⟨"a", .storage (Traced.writeFault
        ((LedgerStore.mk none .epoch).path ⟨7⟩))⟩⟩ := by
    decide +kernel
  have hvalue : ((ofOneDigit 3 (by decide)).backfill 7 twoBlankAndNone).value
      (LedgerStore.mk none .epoch).onTraced unwritable = (.ok _, _) := Prod.ext hresult rfl
  obtain ⟨hleaves, hblank⟩ := (halted_batch_leaves (ofOneDigit 3 (by decide)) 7
    twoBlankAndNone).1 (LedgerStore.mk none .epoch) unwritable
  obtain ⟨stuck, -, -, hrest⟩ := hleaves _ _ _ hvalue rfl
  refine ⟨_, _, _, hvalue, rfl, hblank _ _ _ hvalue rfl ⟨"b", none⟩ ?_ rfl, stuck,
    hrest ⟨"c", some "?"⟩ ?_⟩
  · exact List.mem_cons_of_mem _ List.mem_cons_self
  · exact List.mem_cons_of_mem _ (List.mem_cons_of_mem _ List.mem_cons_self)

/-- Portfolio seven has issued the only sequence of every letter. -/
def usedUp : SharedDatabase :=
  .ofDatabase ⟨Database.currentVersion, some ((List.finRange 26).map fun place =>
    ⟨7, (Letter.mk place).text, 2⟩)⟩

/-- A record without a text, and one whose reference was issued. -/
def blankAndIssued : List LegacyRecord := [⟨"a", none⟩, ⟨"b", some "7A1"⟩]

/-- The batch halts at the first record, and leaves the second, which alone keeps its reference. -/
theorem halted_batch_leaves_kept :
    ∃ report halt after, ((ofOneDigit 1 (by decide)).backfill 7 blankAndIssued).value
        SharedDatabase.answer usedUp = (.ok report, after) ∧ report.halted = some halt ∧
      ∃ record ∈ blankAndIssued.drop report.entries.length,
        (ofOneDigit 1 (by decide)).KeepsReference SharedDatabase.answer 7 record after := by
  have hbatch : ((ofOneDigit 1 (by decide)).backfill 7 blankAndIssued).value SharedDatabase.answer
      usedUp = (.ok ⟨⟨7⟩, [], 2, some ⟨"a", .outOfSpace ⟨7⟩⟩⟩, usedUp) := by
    decide +kernel
  have hkept : ((ofOneDigit 1 (by decide)).backfill 7 [⟨"b", some "7A1"⟩]).value
      SharedDatabase.answer usedUp = (.ok ⟨⟨7⟩, [⟨"b", .kept ⟨"7A1"⟩⟩], 0, none⟩,
        { usedUp with memory := .queried }) := by
    decide +kernel
  exact ⟨_, _, _, hbatch, rfl, ⟨"b", some "7A1"⟩,
    List.mem_cons_of_mem _ (List.mem_singleton.mpr rfl), _, _, hkept, rfl, rfl⟩

end Settings

end ReferenceMint
