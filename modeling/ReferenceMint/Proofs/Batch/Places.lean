import ReferenceMint.Proofs.Asking
import ReferenceMint.Proofs.Batch.Rerun
import ReferenceMint.Proofs.Processes

/-!
# Where a batch has its references from

Among others a batch can rely on little. What it reads of a ledger may be outdated as soon as it is
read, and others claim while it works. What it does have is a turn of its own for each reference
that it leaves a record with: the turn that committed the claim of an assigned one (`IssuedAt`), or
the one that read buckets which have issued a kept one (`SeesIssued`). These turns come in the order
of the records, and no kept reference occurred before in the batch (`Placed`).

This holds of every report, whatever others do (`backfill_ends`).
-/

namespace ReferenceMint.Store.LedgerStore

open Storage (Memory.answer stored)

/-- A turn of the process reads the ledger of the portfolio, and its buckets have issued what the
reference is written for. -/
def SeesIssued (s : LedgerStore) (process : Nat) (layout : Layout) (portfolio : PortfolioCode)
    (turns : List (Turn Storage.interface)) (k : Nat) (r : Reference) : Prop :=
  ∃ data ledger t, turns[k]? = some ⟨process, .get (s.path portfolio), .ok data⟩ ∧
    decode (s.path portfolio) portfolio data = .ok ledger ∧ t.portfolio = portfolio ∧
    Bucket.issued ledger.rows t.letter t.sequence = true ∧ layout.write t = .ok r

/-- The entries of a batch, with the latest first, and the references that occurred: each of these
goes back to a turn from the place `start` on, in this order and before the last index. -/
inductive Placed (s : LedgerStore) (process : Nat) (settings : Settings) (portfolio : PortfolioCode)
    (turns : List (Turn Storage.interface)) (start : Nat) :
    List BatchEntry → List Reference → Nat → Prop
  /-- There is no entry yet. -/
  | nil : Placed s process settings portfolio turns start [] [] start
  /-- An assigned reference was issued in a later turn. -/
  | assigned {entries : List BatchEntry} {seen : List Reference} {n k : Nat} {r : Reference}
      (id : String) (before : Placed s process settings portfolio turns start entries seen n)
      (later : n ≤ k) (issued : s.IssuedAt process settings portfolio turns k r) :
      Placed s process settings portfolio turns start (⟨id, .assigned r⟩ :: entries) (r :: seen)
        (k + 1)
  /-- A kept reference did not occur, and was seen as issued in a later turn. -/
  | kept {entries : List BatchEntry} {seen : List Reference} {n k : Nat} {r : Reference}
      (id : String) (before : Placed s process settings portfolio turns start entries seen n)
      (later : n ≤ k) (sees : s.SeesIssued process settings.layout portfolio turns k r)
      (fresh : r ∉ seen) :
      Placed s process settings portfolio turns start (⟨id, .kept r⟩ :: entries) (r :: seen) (k + 1)
  /-- A record that failed has no reference. -/
  | failed {entries : List BatchEntry} {seen : List Reference} {n : Nat} (id reason : String)
      (before : Placed s process settings portfolio turns start entries seen n) :
      Placed s process settings portfolio turns start (⟨id, .failed reason⟩ :: entries) seen n

section

variable {s : LedgerStore} {process : Nat} {settings : Settings} {layout : Layout}
  {portfolio : PortfolioCode} {begun turns later : List (Turn Storage.interface)} {start n : Nat}
  {entries : List BatchEntry} {seen : List Reference}

/-- What was seen in a turn was seen for good. -/
theorem SeesIssued.append {k : Nat} {r : Reference}
    (h : s.SeesIssued process layout portfolio turns k r) :
    s.SeesIssued process layout portfolio (turns ++ later) k r := by
  obtain ⟨data, ledger, t, hget, hrest⟩ := h
  refine ⟨data, ledger, t, ?_, hrest⟩
  rw [List.getElem?_append_left (List.getElem?_eq_some_iff.mp hget).1]
  exact hget

/-- More turns do not matter for entries that are placed. -/
theorem Placed.append (h : s.Placed process settings portfolio turns start entries seen n) :
    s.Placed process settings portfolio (turns ++ later) start entries seen n := by
  induction h with
  | nil => exact .nil
  | assigned id before hlater issued ih => exact .assigned id ih hlater issued.append
  | kept id before hlater sees fresh ih => exact .kept id ih hlater sees.append fresh
  | failed id reason before ih => exact .failed id reason ih

/-- The references that occurred are those of the entries. -/
theorem Placed.filterMap_reference?
    (h : s.Placed process settings portfolio turns start entries seen n) :
    (entries.filterMap fun e => e.outcome.reference?) = seen := by
  induction h with
  | nil => rfl
  | assigned id before hlater issued ih => exact congrArg _ ih
  | kept id before hlater sees fresh ih => exact congrArg _ ih
  | failed id reason before ih => exact ih

/-- What became of a record goes back to a turn before the place `n`, if it left it with a
reference. -/
def HasTurn (s : LedgerStore) (process : Nat) (settings : Settings) (portfolio : PortfolioCode)
    (turns : List (Turn Storage.interface)) (start n : Nat) : RecordOutcome → Prop
  | .assigned r => ∃ k, start ≤ k ∧ k < n ∧ s.IssuedAt process settings portfolio turns k r
  | .kept r => ∃ k, start ≤ k ∧ k < n ∧ s.SeesIssued process settings.layout portfolio turns k r
  | .failed _ => True

/-- What goes back to a turn does so with more turns to come. -/
theorem HasTurn.mono {m : Nat} {outcome : RecordOutcome}
    (h : s.HasTurn process settings portfolio turns start m outcome) (hmn : m ≤ n) :
    s.HasTurn process settings portfolio turns start n outcome := by
  cases outcome with
  | assigned r =>
    obtain ⟨k, hstart, hk, hissued⟩ := h
    exact ⟨k, hstart, Nat.lt_of_lt_of_le hk hmn, hissued⟩
  | kept r =>
    obtain ⟨k, hstart, hk, hsees⟩ := h
    exact ⟨k, hstart, Nat.lt_of_lt_of_le hk hmn, hsees⟩
  | failed reason => trivial

/-- Entries are placed from the start on. -/
theorem Placed.start_le (h : s.Placed process settings portfolio turns start entries seen n) :
    start ≤ n := by
  induction h with
  | nil => exact Nat.le_refl _
  | assigned id before hlater issued ih => omega
  | kept id before hlater sees fresh ih => omega
  | failed id reason before ih => exact ih

/-- Each entry goes back to a turn. -/
theorem Placed.hasTurn (h : s.Placed process settings portfolio turns start entries seen n)
    {e : BatchEntry} (he : e ∈ entries) :
    s.HasTurn process settings portfolio turns start n e.outcome := by
  induction h with
  | nil => simp at he
  | @assigned entries seen m k r id before hlater issued ih =>
    have hstart := before.start_le
    rcases List.mem_cons.mp he with rfl | he
    · exact ⟨k, by omega, Nat.lt_succ_self k, issued⟩
    · exact (ih he).mono (by omega)
  | @kept entries seen m k r id before hlater sees fresh ih =>
    have hstart := before.start_le
    rcases List.mem_cons.mp he with rfl | he
    · exact ⟨k, by omega, Nat.lt_succ_self k, sees⟩
    · exact (ih he).mono (by omega)
  | failed id reason before ih =>
    rcases List.mem_cons.mp he with rfl | he
    · trivial
    · exact ih he

/-- The references that occurred are distinct, if none is issued in a turn after one in which it was
issued or seen as issued. -/
theorem Placed.nodup (h : s.Placed process settings portfolio turns start entries seen n)
    (hissued : ∀ k l r, start ≤ k → k < l → s.IssuedAt process settings portfolio turns k r →
      ¬ s.IssuedAt process settings portfolio turns l r)
    (hsees : ∀ k l r, start ≤ k → k < l →
      s.SeesIssued process settings.layout portfolio turns k r →
      ¬ s.IssuedAt process settings portfolio turns l r) : seen.Nodup := by
  induction h with
  | nil => exact List.nodup_nil
  | @assigned entries seen m k r id before hlater issued ih =>
    refine List.nodup_cons.mpr ⟨fun hr => ?_, ih⟩
    -- An earlier entry with the reference goes back to an earlier turn.
    rw [← before.filterMap_reference?, List.mem_filterMap] at hr
    obtain ⟨e, he, hreference⟩ := hr
    have hturn := before.hasTurn he
    cases houtcome : e.outcome with
    | assigned q =>
      rw [houtcome] at hturn hreference
      obtain rfl : q = r := Option.some.inj hreference
      obtain ⟨j, hstart, hj, hissued'⟩ := hturn
      exact hissued j k q hstart (by omega) hissued' issued
    | kept q =>
      rw [houtcome] at hturn hreference
      obtain rfl : q = r := Option.some.inj hreference
      obtain ⟨j, hstart, hj, hsees'⟩ := hturn
      exact hsees j k q hstart (by omega) hsees' issued
    | failed reason =>
      rw [houtcome] at hreference
      exact absurd hreference (by simp [RecordOutcome.reference?])
  | kept id before hlater sees fresh ih => exact List.nodup_cons.mpr ⟨fresh, ih⟩
  | failed id reason before ih => exact ih

/-- The entries so far are placed among the turns so far. -/
def PlacedIn (s : LedgerStore) (process : Nat) (settings : Settings) (portfolio : PortfolioCode)
    (start : Nat) (entries : List BatchEntry) (seen : List Reference)
    (turns : List (Turn Storage.interface)) : Prop :=
  ∃ n ≤ turns.length, s.Placed process settings portfolio turns start entries seen n

/-- Entries stay placed. -/
theorem PlacedIn.mono (h : s.PlacedIn process settings portfolio start entries seen turns)
    (hextends : turns <+: later) :
    s.PlacedIn process settings portfolio start entries seen later := by
  obtain ⟨more, rfl⟩ := hextends
  obtain ⟨n, hn, hplaced⟩ := h
  exact ⟨n, by rw [List.length_append]; omega, hplaced.append⟩

/-! ## One record -/

/-- How working off a record ends: there is an entry more, or an error. -/
def RecordEnds (s : LedgerStore) (process : Nat) (settings : Settings) (portfolio : PortfolioCode)
    (start : Nat) (id : String) (entries : List BatchEntry)
    (begun : List (Turn Storage.interface)) :
    Except AllocationError (RecordOutcome × List Reference) → List (Turn Storage.interface) → Prop
  | .ok (outcome, seen), turns =>
    s.PlacedIn process settings portfolio start (⟨id, outcome⟩ :: entries) seen turns
  | .error _, turns => begun <+: turns

/-- Asking for buckets gives none, or those of the ledger that the last turn has got. -/
theorem buckets_gets : (s.answer (.buckets portfolio)).Obeys Memory.answer [] process
    (.ending fun result turns => begun <+: turns ∧ ∀ rows, result = .ok rows → rows ≠ [] →
      ∃ earlier data ledger, begun <+: earlier ∧
        turns = earlier ++ [⟨process, .get (s.path portfolio), .ok data⟩] ∧
        decode (s.path portfolio) portfolio data = .ok ledger ∧ ledger.rows = rows) begun := by
  apply Program.obeys_call trivial
  intro others _ reply _
  rw [List.append_assoc]
  rcases reply with failure | _ | info
  · exact ⟨List.prefix_append _ _, fun _ h => absurd h (by simp [Except.map])⟩
  · refine ⟨List.prefix_append _ _, fun rows h hrows => ?_⟩
    exact absurd (Except.ok.inj h).symm hrows
  · apply Program.obeys_call trivial
    intro others' _ reply _
    rw [List.append_assoc begun]
    have hbegun : ∀ more, begun <+: begun ++ more := List.prefix_append begun
    rcases reply with failure | data
    · exact ⟨(hbegun _).trans (List.prefix_append _ _), fun _ h => absurd h (by simp [Except.map])⟩
    · refine ⟨(hbegun _).trans (List.prefix_append _ _), fun rows h _ => ?_⟩
      cases hdecode : decode (s.path portfolio) portfolio data with
      | error failure =>
        simp only [hdecode] at h
        have hclash : (.error failure : Except Failure (List Bucket)) = .ok rows := h
        exact absurd hclash (by simp)
      | ok ledger =>
        simp only [hdecode] at h
        exact ⟨_, data, ledger, hbegun _, rfl, hdecode, Except.ok.inj h⟩

/-- A text that is checked fails, or it is kept as a reference that was seen as issued. -/
theorem checkReference_ends (id text : String)
    (h : s.PlacedIn process settings portfolio start entries seen begun) :
    (s.program (settings.checkReference portfolio text seen)).Obeys Memory.answer [] process
      (.ending (s.RecordEnds process settings portfolio start id entries begun)) begun := by
  have hfails : ∀ reason later, begun <+: later →
      s.RecordEnds process settings portfolio start id entries begun
        (.ok (.failed reason, seen)) later := by
    intro reason later hextends
    obtain ⟨n, hn, hplaced⟩ := h.mono hextends
    exact ⟨n, hn, hplaced.failed id reason⟩
  unfold Settings.checkReference
  cases hread : settings.layout.read text with
  | error e => exact hfails _ _ (List.prefix_refl _)
  | ok t =>
    simp only
    split_ifs with hportfolio
    · exact hfails _ _ (List.prefix_refl _)
    · cases hwrite : settings.layout.write t with
      | error e => exact List.prefix_refl _
      | ok r =>
        simp only
        refine buckets_gets.bind_ending ?_
        rintro result turns ⟨hextends, hgets⟩
        rcases result with failure | rows
        · exact hextends
        · show s.RecordEnds process settings portfolio start id entries begun
            (.ok (Settings.verdict portfolio r t rows seen)) turns
          unfold Settings.verdict
          split_ifs with hissued hseen
          · exact hfails _ _ hextends
          · exact hfails _ _ hextends
          · have hissued' : Bucket.issued rows t.letter t.sequence = true := by simpa using hissued
            have hrows : rows ≠ [] := by
              rintro rfl
              exact hissued rfl
            obtain ⟨earlier, data, ledger, hearlier, rfl, hdecode, rfl⟩ := hgets rows rfl hrows
            have hsees : s.SeesIssued process settings.layout portfolio
                (earlier ++ [⟨process, .get (s.path portfolio), .ok data⟩]) earlier.length r :=
              ⟨data, ledger, t, by simp, hdecode, not_not.mp hportfolio, hissued', hwrite⟩
            have hfresh : r ∉ seen := by simpa using hseen
            obtain ⟨n, hn, hplaced⟩ := h
            obtain ⟨more, hmore⟩ := hextends
            rw [← hmore] at hsees ⊢
            refine ⟨earlier.length + 1, ?_, .kept id hplaced.append ?_ hsees hfresh⟩
            · rw [hmore]
              simp
            · exact Nat.le_trans hn hearlier.length_le

/-- What gives a reference since some turns has issued it in one of its turns since. -/
theorem issuedAt_of_takeEnds {α : Type} {gives : Claim → Nat → α → Prop} {a : α} {r : Reference}
    (h : s.TakeEnds process settings portfolio gives begun (.ok a) turns)
    (hgives : ∀ c tries, gives c tries a → settings.layout.write (tripleOf portfolio c) = .ok r) :
    begun <+: turns ∧ ∃ k, begun.length ≤ k ∧ s.IssuedAt process settings portfolio turns k r := by
  obtain ⟨first, earlier, c, tries, hfirst, hwon, -, -, ha⟩ := h
  obtain ⟨t, write, expected, rfl, hprocess, hsilent, hwrite, hcommits⟩ := hfirst.silent.won hwon
  refine ⟨hsilent.isPrefix.trans (List.prefix_append _ _), earlier.length,
    hsilent.isPrefix.length_le, t, write, expected, c, by simp, hprocess, hwrite, ?_,
    hgives c tries ha⟩
  rw [List.take_left]
  exact hcommits

/-- A record without a text is assigned a reference that was issued for it, if there is no error. -/
theorem assign_ends (hportfolio : settings.check portfolio.number.toNat = .ok portfolio)
    (id : String) (h : s.PlacedIn process settings portfolio start entries seen begun) :
    (s.program (settings.assign portfolio seen)).Obeys Memory.answer [] process
      (.ending (s.RecordEnds process settings portfolio start id entries begun)) begun := by
  unfold Settings.assign Program.map
  rw [program_bind]
  refine (issue_ends settings _).bind_ending ?_
  rintro result turns (⟨e, hrefused, -⟩ | ⟨owner, howner, hends⟩)
  · rw [hportfolio] at hrefused
    exact absurd hrefused (by simp)
  · obtain rfl : portfolio = owner := Except.ok.inj (hportfolio.symm.trans howner)
    cases result with
    | error e => exact (silent_of_error hends).isPrefix
    | ok r =>
      obtain ⟨⟨more, rfl⟩, k, hk, hissued⟩ := issuedAt_of_takeEnds hends fun _ _ hr => hr
      obtain ⟨n, hn, hplaced⟩ := h
      have hlt : k < (begun ++ more).length := by
        obtain ⟨t, -, -, -, ht, -⟩ := hissued
        exact (List.getElem?_eq_some_iff.mp ht).1
      exact ⟨k + 1, hlt, .assigned id hplaced.append (Nat.le_trans hn hk) hissued⟩

/-- Whatever others do, working off a record ends in one of these ways. -/
theorem workOff_ends (hportfolio : settings.check portfolio.number.toNat = .ok portfolio)
    (record : LegacyRecord) (h : s.PlacedIn process settings portfolio start entries seen begun) :
    (s.program (settings.workOff portfolio record seen)).Obeys Memory.answer [] process
      (.ending (s.RecordEnds process settings portfolio start record.id entries begun)) begun := by
  cases hcarried : record.carried with
  | none =>
    rw [Settings.workOff_of_none hcarried]
    exact assign_ends hportfolio record.id h
  | some text =>
    rw [Settings.workOff_of_some hcarried]
    exact checkReference_ends record.id text h

/-! ## Batches -/

/-- Whatever others do, the entries of the rest of a batch are placed in the end. -/
theorem workOffFrom_ends (hportfolio : settings.check portfolio.number.toNat = .ok portfolio)
    (records : List LegacyRecord)
    (h : s.PlacedIn process settings portfolio start entries seen turns) :
    (s.program (settings.workOffFrom portfolio records entries seen)).Obeys Memory.answer [] process
      (.ending fun result turns => ∃ entries seen, result.1 = entries.reverse ∧
        s.PlacedIn process settings portfolio start entries seen turns) turns := by
  induction records generalizing entries seen turns with
  | nil => exact ⟨entries, seen, rfl, h⟩
  | cons record rest ih =>
    unfold Settings.workOffFrom
    rw [program_bind]
    refine (workOff_ends hportfolio record h).bind_ending ?_
    intro result later hends
    rcases result with e | ⟨outcome, after⟩
    · -- An error ends the batch with the entries so far, or it is one entry more.
      obtain ⟨n, hn, hplaced⟩ := h.mono hends
      simp only
      split_ifs
      · exact ⟨entries, seen, rfl, n, hn, hplaced⟩
      · exact ih ⟨n, hn, hplaced.failed record.id e.message⟩
    · exact ih hends

/-- How a batch ends: with an error, or with a report whose entries are placed. -/
def BatchEnds (s : LedgerStore) (process : Nat) (settings : Settings) (start : Nat) :
    Except AllocationError BatchReport → List (Turn Storage.interface) → Prop
  | .ok report, turns => ∃ entries seen, report.entries = entries.reverse ∧
    s.PlacedIn process settings report.portfolio start entries seen turns
  | .error _, _ => True

/-- Whatever others do, a batch ends so. -/
theorem backfill_ends (settings : Settings) (code : Int) (records : List LegacyRecord) :
    (s.program (settings.backfill code records)).Obeys Memory.answer [] process
      (.ending (s.BatchEnds process settings begun.length)) begun := by
  unfold Settings.backfill
  cases hcheck : settings.check code with
  | error e => trivial
  | ok portfolio =>
    have hportfolio := Settings.check_number hcheck
    have hnone : s.PlacedIn process settings portfolio begun.length [] [] begun :=
      ⟨begun.length, Nat.le_refl _, .nil⟩
    have hwithin : (s.program (Program.within (Settings.backfillSpan code records.length)
        (settings.workOffFrom portfolio records [] []))).Obeys Memory.answer [] process
        (.ending fun result turns => ∃ entries seen, result.1 = entries.reverse ∧
          s.PlacedIn process settings portfolio begun.length entries seen turns) begun := by
      show (s.program
        (Program.bind (settings.workOffFrom portfolio records [] []) _)).Obeys _ _ _ _ _
      rw [program_bind]
      exact (workOffFrom_ends hportfolio records hnone).bind_ending fun _ _ hends => hends
    simp only
    rw [program_bind]
    exact hwithin.bind_ending fun _ _ hends => hends

end

end ReferenceMint.Store.LedgerStore
