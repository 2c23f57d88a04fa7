import ReferenceMint.Proofs.Batch.Running
import ReferenceMint.Proofs.Batch.Steps
import ReferenceMint.Proofs.Store.ForcedRaces
import ReferenceMint.Proofs.Walking
import ReferenceMint.Proofs.WriteOnce

/-!
# Lost races are retried within the budget

Where races are to be lost, each try of an allocation uses up one of them, as long as there are any.
The try after them takes the claim at the cursor, unless the tries are spent before
(`Settings.value_tryClaim_contended`). So an allocation succeeds exactly if it has more tries than
there are races to lose, and a lost race costs no sequence.

In a batch of records without a text, the first ones fail that spend all their tries on the races.
From then on the batch goes as if there had been none (`Settings.value_workOffFrom_contended`): it
assigns what remains, in order (`Settings.value_workOffFrom_blank`).
-/

namespace ReferenceMint

open Storage (Traced)
open Store

namespace Settings

variable {s : Settings} {store : LedgerStore} {code : Int} {portfolio : PortfolioCode} {b : Book}
  {c : Claim} {races : Nat} {t : Traced} {record : LegacyRecord} {records : List LegacyRecord}
  {seen : List Reference} {refs : List Reference}

/-! ## One allocation -/

/-- Without races to lose, a try takes the claim at the cursor. -/
theorem value_tryOnce_taken (hb : b.HasHistory) (ht : store.Contended b 0 t)
    (hclaim : (cursorOf (b.rows portfolio)).claim s.capacity = some c) (number : Nat)
    (lost : Option Cursor → Allocating Allocation) :
    ∃ u, (s.tryOnce portfolio number (cursorOf (b.rows portfolio)) lost).value store.onTraced t =
        (.ok (.ofClaim portfolio c number), u) ∧ store.Contended (b.record portfolio c) 0 u := by
  obtain ⟨u, hanswer, hu⟩ := ht.claim_taken hb (plan_of_claim hclaim)
  refine ⟨u, ?_, hu⟩
  rw [value_tryOnce_eq store.onTraced hclaim, hanswer]

/-- A try loses a race if there is one to lose. -/
theorem value_tryOnce_lost (hb : b.HasHistory) (ht : store.Contended b (races + 1) t)
    (hclaim : (cursorOf (b.rows portfolio)).claim s.capacity = some c) (number : Nat)
    (lost : Option Cursor → Allocating Allocation) :
    ∃ u, (s.tryOnce portfolio number (cursorOf (b.rows portfolio)) lost).value store.onTraced t =
        (lost none).value store.onTraced u ∧ store.Contended b races u := by
  obtain ⟨u, hanswer, hu⟩ := ht.claim_lost hb (plan_of_claim hclaim)
  refine ⟨u, ?_, hu⟩
  rw [value_tryOnce_eq store.onTraced hclaim, hanswer]

/-- How an allocation ends that still has so many tries, the first of which has the number, where
races are to be lost: with the claim in the try after the races, or without tries. -/
def Spends (s : Settings) (store : LedgerStore) (portfolio : PortfolioCode) (b : Book) (c : Claim)
    (races tries number : Nat) (outcome : Except AllocationError Allocation × Traced) : Prop :=
  (races < tries ∧ outcome.1 = .ok (.ofClaim portfolio c (number + races)) ∧
    store.Contended (b.record portfolio c) 0 outcome.2) ∨
  (tries ≤ races ∧ outcome.1 = .error (.outOfTries portfolio s.tries) ∧
    store.Contended b (races - tries) outcome.2)

/-- Each try uses up a race to lose, and the first one without takes the claim at the cursor. -/
theorem value_tryClaim_contended (hb : b.HasHistory)
    (hclaim : (cursorOf (b.rows portfolio)).claim s.capacity = some c) (retries number : Nat)
    (ht : store.Contended b races t) :
    s.Spends store portfolio b c races (retries + 1) number
      ((s.tryClaim portfolio retries number (cursorOf (b.rows portfolio))).value
        store.onTraced t) := by
  induction retries generalizing races number t with
  | zero =>
    unfold tryClaim
    cases races with
    | zero =>
      obtain ⟨u, hvalue, hu⟩ := value_tryOnce_taken hb ht hclaim number _
      rw [hvalue]
      exact .inl ⟨by omega, rfl, hu⟩
    | succ races =>
      obtain ⟨u, hvalue, hu⟩ := value_tryOnce_lost hb ht hclaim number _
      rw [hvalue]
      exact .inr ⟨by omega, rfl, hu⟩
  | succ retries ih =>
    unfold tryClaim
    cases races with
    | zero =>
      obtain ⟨u, hvalue, hu⟩ := value_tryOnce_taken hb ht hclaim number _
      rw [hvalue]
      exact .inl ⟨by omega, rfl, hu⟩
    | succ races =>
      obtain ⟨u, hvalue, hu⟩ := value_tryOnce_lost hb ht hclaim number _
      -- The store saw no cursor, so the same one is read anew.
      obtain ⟨u', hanswer, hu'⟩ := hu.active hb.allTidy portfolio
      rw [hvalue]
      simp only [Program.value]
      rw [hanswer]
      show s.Spends store portfolio b c (races + 1) (retries + 1 + 1) number
        ((s.tryClaim portfolio retries (number + 1) (cursorOf (b.rows portfolio))).value _ u')
      rcases ih (number + 1) hu' with ⟨hlt, hresult, hafter⟩ | ⟨hle, hresult, hafter⟩
      · refine .inl ⟨by omega, ?_, hafter⟩
        rw [hresult, Nat.add_assoc, Nat.add_comm 1 races]
      · refine .inr ⟨by omega, hresult, ?_⟩
        rw [Nat.add_sub_add_right]
        exact hafter

/-- An allocation uses up a race with each of its tries. -/
theorem value_allocate_contended (hcheck : s.check code = .ok portfolio) (hb : b.HasHistory)
    (hclaim : (cursorOf (b.rows portfolio)).claim s.capacity = some c)
    (ht : store.Contended b races t) :
    s.Spends store portfolio b c races s.tries.toNat 1
      ((s.allocate code).value store.onTraced t) := by
  have htries : 1 ≤ s.tries.toNat := UInt32.le_iff_toNat_le.mp s.tries_pos
  obtain ⟨u, hanswer, hu⟩ := ht.active hb.allTidy portfolio
  rw [value_allocate_eq]
  unfold allocateOnce
  rw [hcheck]
  simp only [Program.value]
  rw [hanswer]
  have hspends := value_tryClaim_contended hb hclaim (s.tries.toNat - 1) 1 hu
  rw [Nat.sub_add_cancel htries] at hspends
  exact hspends

/-- What an allocation from traced storage comes to, where the claim stands at the cursor: within
the budget of tries it takes the claim, and beyond it nothing is taken. -/
structure RetriesWithinBudget (s : Settings) (store : LedgerStore) (code : Int)
    (portfolio : PortfolioCode) (c : Claim) (t : Traced) : Prop where
  /-- With more tries than races to lose, the try after the races takes the claim, one write is
  made, and no race is left to lose. -/
  within : t.racesToLose < s.tries.toNat →
    ((store.program (s.allocate code)).value Traced.answer t).1 =
      .ok (.ofClaim portfolio c (t.racesToLose + 1)) ∧
    ((store.program (s.allocate code)).value Traced.answer t).2.changeCount = t.changeCount + 1 ∧
    ((store.program (s.allocate code)).value Traced.answer t).2.racesToLose = 0
  /-- With no more tries than races to lose, the tries are spent, no write is made, and each try has
  used up a race. -/
  beyond : s.tries.toNat ≤ t.racesToLose →
    ((store.program (s.allocate code)).value Traced.answer t).1 =
      .error (.outOfTries portfolio s.tries) ∧
    ((store.program (s.allocate code)).value Traced.answer t).2.changeCount = t.changeCount ∧
    ((store.program (s.allocate code)).value Traced.answer t).2.objects = t.objects ∧
    ((store.program (s.allocate code)).value Traced.answer t).2.racesToLose =
      t.racesToLose - s.tries.toNat

/-- An allocation retries within its budget. -/
theorem retriesWithinBudget (hcheck : s.check code = .ok portfolio) (hb : b.HasHistory)
    (hclaim : (cursorOf (b.rows portfolio)).claim s.capacity = some c)
    (ht : store.Contended b t.racesToLose t) : s.RetriesWithinBudget store code portfolio c t := by
  have honce := LedgerStore.value_allocate_traced (s := store) s hcheck t
  have hspends := value_allocate_contended hcheck hb hclaim ht
  rw [← LedgerStore.value_program] at hspends
  generalize hvalue : (store.program (s.allocate code)).value Traced.answer t = outcome
    at honce hspends
  obtain ⟨result, u⟩ := outcome
  refine ⟨fun hlt => ?_, fun hle => ?_⟩
  · obtain ⟨-, rfl, hafter⟩ := hspends.resolve_right fun h => absurd h.1 (by omega)
    obtain ⟨_, _, -, -, hwrote⟩ := honce
    rw [hvalue, Nat.add_comm]
    exact ⟨rfl, hwrote.changeCount, hafter.races⟩
  · obtain ⟨-, rfl, hafter⟩ := hspends.resolve_left fun h => absurd h.1 (by omega)
    obtain ⟨hsame, -⟩ := honce
    rw [hvalue]
    exact ⟨rfl, hsame.changeCount, hsame.objects, hafter.races⟩

/-! ## Batches -/

/-- A record without a text is assigned the claim at the cursor, or it fails because its tries are
spent. -/
theorem value_workOff_contended (hcheck : s.check code = .ok portfolio) (hb : b.HasHistory)
    (hclaim : (cursorOf (b.rows portfolio)).claim s.capacity = some c)
    (hblank : record.carried = none) (ht : store.Contended b races t) (seen : List Reference) :
    ∃ u, (races < s.tries.toNat ∧ (∃ r, s.layout.write (tripleOf portfolio c) = .ok r ∧
        (s.workOff portfolio record seen).value store.onTraced t =
          (.ok (.assigned r, r :: seen), u)) ∧ store.Contended (b.record portfolio c) 0 u) ∨
      (s.tries.toNat ≤ races ∧ (s.workOff portfolio record seen).value store.onTraced t =
        (.error (.outOfTries portfolio s.tries), u) ∧
        store.Contended b (races - s.tries.toNat) u) := by
  have hspends := value_allocate_contended (check_number hcheck) hb hclaim ht
  rw [workOff_of_none hblank]
  unfold assign issue
  rw [Program.value_map, Program.value_map]
  generalize (s.allocate portfolio.number.toNat).value store.onTraced t = outcome at hspends ⊢
  obtain ⟨result, u⟩ := outcome
  refine ⟨u, ?_⟩
  rcases hspends with ⟨hlt, rfl, hafter⟩ | ⟨hle, rfl, hafter⟩
  · obtain ⟨r, hwrite⟩ := write_of_claim (hb portfolio).tidy hclaim
    refine .inl ⟨hlt, ⟨r, hwrite, ?_⟩, hafter⟩
    show (Except.map _ ((s.layout.write (tripleOf portfolio c)).mapError _), u) = _
    rw [hwrite]
    rfl
  · exact .inr ⟨hle, rfl, hafter⟩

/-- The entry of a record whose tries are spent. -/
def spentEntry (s : Settings) (portfolio : PortfolioCode) (record : LegacyRecord) : BatchEntry :=
  ⟨record.id, .failed (AllocationError.outOfTries portfolio s.tries).message⟩

/-- The records that spend their tries fail, and then the batch goes as it does on the book. -/
theorem value_workOffFrom_contended (hcheck : s.check code = .ok portfolio) (hb : b.HasHistory)
    (hclaim : (cursorOf (b.rows portfolio)).claim s.capacity = some c)
    (hblank : ∀ record ∈ records, record.carried = none) (ht : store.Contended b races t)
    (seen : List Reference) :
    ((s.workOffFrom portfolio records [] seen).value store.onTraced t).1 =
      ((records.take (races / s.tries.toNat)).map (s.spentEntry portfolio) ++
        ((s.workOffFrom portfolio (records.drop (races / s.tries.toNat)) [] seen).value
          Book.answer b).1.1,
      ((s.workOffFrom portfolio (records.drop (races / s.tries.toNat)) [] seen).value
          Book.answer b).1.2) := by
  have htries : 1 ≤ s.tries.toNat := UInt32.le_iff_toNat_le.mp s.tries_pos
  induction records generalizing races t with
  | nil => simp [workOffFrom, Program.value]
  | cons record rest ih =>
    obtain ⟨hrecord, hrest⟩ := List.forall_mem_cons.mp hblank
    obtain ⟨u, ⟨hlt, ⟨r, hwrite, hvalue⟩, hafter⟩ | ⟨hle, hvalue, hafter⟩⟩ :=
      value_workOff_contended hcheck hb hclaim hrecord ht seen
    · -- No more race is to be lost, so the store serves the book from here on.
      have hserved := (store.serves_onTraced.value
        (s.asks_workOffFrom portfolio rest [⟨record.id, .assigned r⟩] (r :: seen)) hafter
        (hasHistory_record hb hclaim)).1
      rw [Nat.div_eq_of_lt hlt, List.take_zero, List.drop_zero, value_workOffFrom_cons, hvalue,
        value_workOffFrom_cons, workOff_of_claim hcheck hrecord hclaim hwrite]
      exact hserved
    · have hends : (AllocationError.outOfTries portfolio s.tries).endsBatch = false := rfl
      have hdiv : races / s.tries.toNat = (races - s.tries.toNat) / s.tries.toNat + 1 :=
        Nat.div_eq_sub_div htries hle
      rw [value_workOffFrom_cons, hvalue, hdiv, List.take_succ_cons, List.drop_succ_cons]
      simp only [hends, Bool.false_eq_true, if_false]
      rw [value_workOffFrom_entries, ih hrest hafter]
      rfl

/-- On the book, records without a text are assigned what remains, in order, until nothing is
left. -/
theorem value_workOffFrom_blank (hcheck : s.check code = .ok portfolio) (hb : b.HasHistory)
    (hblank : ∀ record ∈ records, record.carried = none)
    (hrefs : List.Forall₂ (fun triple r => s.layout.write triple = .ok r)
      (Triple.remaining portfolio s.capacity (cursorOf (b.rows portfolio))) refs)
    (seen : List Reference) :
    ((s.workOffFrom portfolio records [] seen).value Book.answer b).1 =
      (List.zipWith (fun record r => ⟨record.id, .assigned r⟩) records refs,
        records[refs.length]?.map fun record => ⟨record.id, .outOfSpace portfolio⟩) := by
  induction records generalizing b refs seen with
  | nil => simp [workOffFrom, Program.value]
  | cons record rest ih =>
    obtain ⟨hrecord, hrest⟩ := List.forall_mem_cons.mp hblank
    have htidy := (hb portfolio).tidy
    have hindex := htidy.one_le_index_cursorOf
    have hcapacity := s.toNat_capacity_pos
    have hbound : s.capacity.toNat < 2 ^ 32 - 1 := by
      have hlt := s.toNat_capacity_lt
      omega
    cases hclaim : (cursorOf (b.rows portfolio)).claim s.capacity with
    | none =>
      rw [Cursor.remaining_of_none portfolio hindex hcapacity hclaim] at hrefs
      cases hrefs
      rw [value_workOffFrom_cons, workOff_of_exhausted hcheck hrecord hclaim]
      rfl
    | some c =>
      rw [Cursor.remaining_of_claim portfolio hindex hcapacity hbound hclaim,
        ← cursorOf_recorded htidy (takenAt_of_claim htidy.sorted hclaim),
        ← Book.rows_record_self] at hrefs
      cases hrefs with
      | @cons _ r _ refs hwrite hrefs =>
        rw [value_workOffFrom_cons, workOff_of_claim hcheck hrecord hclaim hwrite]
        simp only
        rw [value_workOffFrom_entries, ih (hasHistory_record hb hclaim) hrest hrefs]
        rfl

/-- The report on records without a text of which the first ones spend their tries: these fail, and
the references go to the others in order, until there are no more. -/
def reportAfterLosses (s : Settings) (portfolio : PortfolioCode) (refs : List Reference)
    (spent : Nat) (records : List LegacyRecord) : BatchReport :=
  reportOf portfolio records
    ((records.take spent).map (s.spentEntry portfolio) ++
      List.zipWith (fun record r => ⟨record.id, .assigned r⟩) (records.drop spent) refs,
    (records.drop spent)[refs.length]?.map fun record => ⟨record.id, .outOfSpace portfolio⟩)

/-- A batch of records without a text, where races are to be lost. -/
theorem value_backfill_contended (hcheck : s.check code = .ok portfolio) (hb : b.HasHistory)
    (hclaim : (cursorOf (b.rows portfolio)).claim s.capacity = some c)
    (hblank : ∀ record ∈ records, record.carried = none) (ht : store.Contended b races t)
    (hrefs : List.Forall₂ (fun triple r => s.layout.write triple = .ok r)
      (Triple.remaining portfolio s.capacity (cursorOf (b.rows portfolio))) refs) :
    ((s.backfill code records).value store.onTraced t).1 =
      .ok (s.reportAfterLosses portfolio refs (races / s.tries.toNat) records) := by
  have hlater : ∀ record ∈ records.drop (races / s.tries.toNat), record.carried = none :=
    fun record hrecord => hblank record (List.mem_of_mem_drop hrecord)
  rw [value_backfill_eq store.onTraced hcheck,
    value_workOffFrom_contended hcheck hb hclaim hblank ht,
    value_workOffFrom_blank hcheck hb hlater hrefs]
  rfl

/-- What remains can be written. -/
theorem exists_references (s : Settings) (portfolio : PortfolioCode) {cursor : Cursor}
    (hindex : 1 ≤ cursor.index.toNat) :
    ∃ refs, List.Forall₂ (fun triple r => s.layout.write triple = .ok r)
      (Triple.remaining portfolio s.capacity cursor) refs := by
  have hwrite : ∀ triple ∈ Triple.remaining portfolio s.capacity cursor,
      ∃ r, s.layout.write triple = .ok r := by
    intro triple htriple
    obtain ⟨-, hpos, hle, -⟩ := (Triple.mem_remaining hindex).mp htriple
    exact s.write_eq_ok hpos hle
  have hnonempty : Nonempty Reference := ⟨⟨""⟩⟩
  choose! write hwrite using hwrite
  exact ⟨_, List.forall₂_map_right_iff.mpr (List.forall₂_same.mpr hwrite)⟩

/-- Whatever was claimed before, and as long as there is a claim at the cursor: an allocation from
traced storage, where only races are to be lost, succeeds in the try after the races if it has more
tries than there are races, with the same claim and one write in any case, and else it spends its
tries, each on a race, and writes nothing. A batch of records without a text loses as many records
as the races fill up budgets, from the first one on, and assigns to the others what it would assign
to them without races: what remains, in order, as long as there is any. -/
theorem races_are_retried_within_budget (folder : Option String) (clock : Nat → Timestamp)
    (time : Timestamp) {earlier : List Call} (hearlier : ∀ c ∈ earlier, c.IsBounded) (s : Settings)
    {code : Int} {portfolio : PortfolioCode} (hcheck : s.check code = .ok portfolio)
    {active : Option Cursor} (hactive : (LedgerStore.serve folder clock (.active portfolio)
      (converse (LedgerStore.serve folder clock) earlier .empty).2).1 = .ok active)
    {c : Claim} (hclaim : (active.getD .start).claim s.capacity = some c) {t : Traced}
    (hobjects : t.objects = (converse (LedgerStore.serve folder clock) earlier .empty).2.objects)
    (hfailing : t.failing = []) (hfaults : t.faults = .none) :
    (∀ races, s.RetriesWithinBudget ⟨folder, time⟩ code portfolio c
      (t.control (.loseRaces races))) ∧
    ∃ refs, List.Forall₂ (fun triple r => s.layout.write triple = .ok r)
        (Triple.remaining portfolio s.capacity (active.getD .start)) refs ∧
      ∀ races records, (∀ record ∈ records, LegacyRecord.carried record = none) →
        (((LedgerStore.mk folder time).program (s.backfill code records)).value Traced.answer
          (t.control (.loseRaces races))).1 =
        .ok (s.reportAfterLosses portfolio refs (races / s.tries.toNat) records) := by
  have hkept := LedgerStore.bookkeeping folder clock
  obtain ⟨b, hkeeps, hb, -⟩ := hkept.reached hearlier
  have hcursor : active.getD .start = cursorOf (b.rows portfolio) :=
    congrArg (·.getD .start)
      (Except.ok.inj (hactive.symm.trans (hkept.serves.active hkeeps hb portfolio)))
  have hcontended : ∀ races, (LedgerStore.mk folder time).Contended b races
      (t.control (.loseRaces races)) := by
    intro races
    have hshelves := hkeeps time
    rw [← hobjects] at hshelves
    exact ⟨hshelves, hfailing, hfaults, rfl⟩
  rw [hcursor] at hclaim ⊢
  refine ⟨fun races => retriesWithinBudget hcheck hb hclaim (hcontended races), ?_⟩
  obtain ⟨refs, hrefs⟩ := s.exists_references portfolio (hb portfolio).tidy.one_le_index_cursorOf
  refine ⟨refs, hrefs, fun races records hblank => ?_⟩
  rw [LedgerStore.value_program]
  exact value_backfill_contended hcheck hb hclaim hblank (hcontended races) hrefs

/-- Portfolio seven has issued its first sequence. -/
def firstOfFive : List Call := [.claim ⟨7⟩ .start 5]

/-- Traced storage with the ledger after this. -/
def afterFirstOfFive : Traced :=
  { Traced.empty with
    objects := (converse (LedgerStore.serve none fun _ => .epoch) firstOfFive .empty).2.objects }

/-- Three records without a text. -/
def threeBlank : List LegacyRecord := [⟨"a", none⟩, ⟨"b", some ""⟩, ⟨"c", some "  "⟩]

/-- With four tries, an allocation survives three races but not four, and nine races cost a batch of
three records the first two. -/
theorem races_are_retried_within_budget_of_four :
    (((LedgerStore.mk none .epoch).program (settingsOfFourTries.allocate 7)).value Traced.answer
        (afterFirstOfFive.control (.loseRaces 3))).1 =
      .ok (.ofClaim ⟨7⟩ ⟨.first, 2, .stays⟩ 4) ∧
    (((LedgerStore.mk none .epoch).program (settingsOfFourTries.allocate 7)).value Traced.answer
        (afterFirstOfFive.control (.loseRaces 4))).1 = .error (.outOfTries ⟨7⟩ 4) ∧
    ∃ refs, refs.length = 129 ∧
      (((LedgerStore.mk none .epoch).program (settingsOfFourTries.backfill 7 threeBlank)).value
        Traced.answer (afterFirstOfFive.control (.loseRaces 9))).1 =
      .ok (settingsOfFourTries.reportAfterLosses ⟨7⟩ refs 2 threeBlank) := by
  have hbounded : ∀ c ∈ firstOfFive, c.IsBounded := by decide
  have hseven : settingsOfFourTries.check 7 = .ok ⟨7⟩ := by decide
  have hactive : (LedgerStore.serve none (fun _ => .epoch) (.active ⟨7⟩)
      (converse (LedgerStore.serve none fun _ => .epoch) firstOfFive .empty).2).1 =
      .ok (some ⟨.first, 2⟩) := by
    have hdecided : ∀ active : Except Failure (Option Cursor),
        decide (active = .ok (some ⟨.first, 2⟩)) = true → active = .ok (some ⟨.first, 2⟩) :=
      fun _ => of_decide_eq_true
    exact hdecided _ (by decide +kernel)
  obtain ⟨hallocate, refs, hrefs, hbatch⟩ :=
    races_are_retried_within_budget none (fun _ => .epoch) .epoch hbounded settingsOfFourTries
      hseven hactive rfl (t := afterFirstOfFive) rfl rfl rfl
  have hblank : ∀ record ∈ threeBlank, record.carried = none := by decide
  refine ⟨((hallocate 3).within (by decide)).1, ((hallocate 4).beyond (by decide)).1, refs, ?_,
    hbatch 9 threeBlank hblank⟩
  rw [← hrefs.length_eq, Triple.length_remaining]
  rfl

end Settings

end ReferenceMint
