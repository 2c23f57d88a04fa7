import ReferenceMint.Proofs.Batch.Outcome

/-!
# A batch may be run again

The references that a batch leaves its records with are distinct (`Settings.Worked.nodup_seen`),
each of them names a claim (`Settings.Worked.names_of_mem_seen`), and claims are never forgotten. So
records that carry these references keep them in a second batch, in whatever order they come and
whatever was claimed in between, and the second batch changes nothing (`batches_may_run_again`).
-/

namespace ReferenceMint

open Store

/-- The reference that a record is left with, if it did not fail. -/
def RecordOutcome.reference? : RecordOutcome → Option Reference
  | .assigned r => some r
  | .kept r => some r
  | .failed _ => none

/-- The records of a report that are left with a reference: their identifiers and the references. -/
def BatchReport.referenced (report : BatchReport) : List (String × Reference) :=
  report.entries.filterMap fun e => e.outcome.reference?.map fun r => (e.id, r)

/-- A record that carries the reference that it was left with. -/
def LegacyRecord.ofReferenced (p : String × Reference) : LegacyRecord := ⟨p.1, some p.2.text⟩

/-- The entry for a record that keeps the reference that it was left with. -/
def BatchEntry.ofReferenced (p : String × Reference) : BatchEntry := ⟨p.1, .kept p.2⟩

namespace Settings

variable {s : Settings} {code : Int} {portfolio : PortfolioCode} {b b' : Book}
  {done : List LegacyRecord} {entries : List BatchEntry} {seen : List Reference}

/-! ## The references of the first batch -/

/-- The references that are remembered are those of the entries. -/
theorem Worked.filterMap_reference? (h : Worked s portfolio b done entries seen b')
    (hcheck : s.check code = .ok portfolio) (hb : b.HasHistory) :
    (entries.filterMap fun e => e.outcome.reference?) = seen := by
  induction h with
  | nil => rfl
  | @record done entries seen middle after next outcome seen' before step ih =>
    have hcases := workOff_cases hcheck (before.hasHistory hcheck hb) next seen
    rw [step] at hcases
    cases hcases with
    | assigned => exact congrArg _ ih
    | kept => exact congrArg _ ih
    | failed => exact ih

/-- A reference that is remembered names a claim. -/
theorem Worked.names_of_mem_seen (h : Worked s portfolio b done entries seen b')
    (hcheck : s.check code = .ok portfolio) (hb : b.HasHistory) {r : Reference} (hr : r ∈ seen) :
    s.Names portfolio (b'.claims portfolio) r.text := by
  obtain ⟨news, hnews⟩ := h.account hcheck hb
  rw [hnews.claims]
  rcases (hnews.remembered r).mp hr with hnew | ⟨-, hold⟩
  · exact hnew.mono fun c hc => List.mem_append_left _ hc
  · exact hold.mono fun c hc => List.mem_append_right _ hc

/-- No reference is remembered twice: an assigned one names a claim that was not there before. -/
theorem Worked.nodup_seen (h : Worked s portfolio b done entries seen b')
    (hcheck : s.check code = .ok portfolio) (hb : b.HasHistory) : seen.Nodup := by
  induction h with
  | nil => exact List.nodup_nil
  | @record done entries seen middle after next outcome seen' before step ih =>
    have hhistory := before.hasHistory hcheck hb
    have hcases := workOff_cases hcheck hhistory next seen
    rw [step] at hcases
    cases hcases with
    | assigned c r carried claim write =>
      refine List.nodup_cons.mpr ⟨fun hr => ?_, ih⟩
      have hafter := hasHistory_record hhistory claim portfolio
      rw [Book.claims_record_self] at hafter
      have hnew : s.Names portfolio [c] r.text :=
        ⟨c, List.mem_singleton_self c, Layout.read_of_write (number_ne_zero hcheck) write⟩
      exact not_names_of_names hafter hnew (before.names_of_mem_seen hcheck hb hr)
    | kept text carried recognized fresh => exact List.nodup_cons.mpr ⟨fresh, ih⟩
    | failed => exact ih

/-- What a report says of references is what the entries say. -/
theorem map_snd_referenced (report : BatchReport) :
    report.referenced.map Prod.snd = report.entries.filterMap fun e => e.outcome.reference? := by
  unfold BatchReport.referenced
  rw [List.map_filterMap]
  congr 1
  funext e
  cases e.outcome.reference? <;> rfl

/-! ## The second batch -/

/-- A text that names a claim is carried as it is. -/
theorem carried_ofReferenced {claims : List Claim} {p : String × Reference}
    (h : s.Names portfolio claims p.2.text) :
    (LegacyRecord.ofReferenced p).carried = some p.2.text := by
  obtain ⟨c, -, hread⟩ := h
  have hwrite := Layout.write_of_read hread
  have htrim := Layout.trim_of_write hwrite
  have hne := Layout.ne_nil_of_write hwrite
  unfold LegacyRecord.carried LegacyRecord.ofReferenced
  simp only [Option.map_some]
  rw [htrim]
  cases htext : p.2.text.toList with
  | nil => exact absurd htext hne
  | cons c cs =>
    simp only
    rw [← htext, String.ofList_toList]

/-- Records that carry different references which name claims keep them, and leave the book as it
is. -/
theorem worked_ofReferenced (hb : b.HasHistory) {ps : List (String × Reference)}
    (hnames : ∀ p ∈ ps, s.Names portfolio (b.claims portfolio) p.2.text)
    (hnodup : (ps.map Prod.snd).Nodup) :
    Worked s portfolio b (ps.map .ofReferenced) (ps.map .ofReferenced).reverse
      (ps.map Prod.snd).reverse b := by
  induction ps using List.reverseRecOn with
  | nil => exact .nil
  | append_singleton ps p ih =>
    rw [List.map_append, List.map_singleton, List.nodup_append] at hnodup
    have hp := hnames p (by simp)
    have hbefore := ih (fun q hq => hnames q (by simp [hq])) hnodup.1
    have hfresh : p.2 ∉ (ps.map Prod.snd).reverse := by
      rw [List.mem_reverse]
      exact fun hmem => hnodup.2.2 _ hmem _ (List.mem_singleton_self _) rfl
    have hrecognized := (recognizes_iff hb).mpr hp
    have hstep : (s.workOff portfolio (.ofReferenced p) (ps.map Prod.snd).reverse).value
        Book.answer b = (.ok (.kept p.2, p.2 :: (ps.map Prod.snd).reverse), b) := by
      rw [workOff_of_some (carried_ofReferenced hp)]
      rcases s.checkReference_cases portfolio p.2.text (ps.map Prod.snd).reverse b with
        ⟨-, -, hvalue⟩ | ⟨hunknown, -⟩
      · exact hvalue
      · exact absurd ⟨hrecognized, hfresh⟩ hunknown
    have hworked := hbefore.record hstep
    rw [List.map_append, List.map_append, List.map_append, List.reverse_append,
      List.reverse_append]
    exact hworked

/-- From the state, a batch may be run again: whatever is called in between, records that carry the
references that the batch left them with, in any order, keep them all, and the second batch leaves
all buckets as they are. -/
def RunsAgain {σ : Type} (answer : (c : Call) → σ → Reply c × σ) (s : Settings) (code : Int)
    (portfolio : PortfolioCode) (state : σ) (records : List LegacyRecord) : Prop :=
  ∃ report, ((s.backfill code records).run answer state).result = .ok report ∧
    ∀ (second : List (String × Reference)) (between : List Call) (later : σ),
      second.Perm report.referenced → (∀ c ∈ between, c.IsBounded) →
      later = (converse answer between (afterBatch answer s code records state)).2 →
      ((s.backfill code (second.map .ofReferenced)).run answer later).result =
          .ok ⟨portfolio, second.map .ofReferenced, 0, none⟩ ∧
        ∀ other, ∃ rows, (answer (.buckets other) later).1 = .ok rows ∧
          (answer (.buckets other)
            (afterBatch answer s code (second.map .ofReferenced) later)).1 = .ok rows

/-- On a store that keeps the book, a batch may be run again. -/
theorem runsAgain {σ : Type} {answer : (c : Call) → σ → Reply c × σ} {keeps : σ → Book → Prop}
    {start state : σ} (h : Bookkeeping answer keeps start) (hcheck : s.check code = .ok portfolio)
    (hstate : keeps state b) (hb : b.HasHistory) (records : List LegacyRecord) :
    RunsAgain answer s code portfolio state records := by
  obtain ⟨done, back, entries, seen, b', halted, -, hworked, -, hvalue⟩ :=
    value_backfill hcheck hb records
  obtain ⟨hresult, hafter, hhistory⟩ := h.serves.value (s.asks_backfill code records) hstate hb
  rw [hvalue] at hresult hafter hhistory
  refine ⟨_, by rw [Program.result_run, hresult], ?_⟩
  rintro second between later hperm hbetween rfl
  unfold afterBatch at *
  rw [Program.state_run]
  obtain ⟨b₂, hkeeps, hhistory₂, hclaims⟩ := h.follows.converse hbetween hhistory hafter
  -- The second batch carries what the first one remembered.
  have hseen := map_snd_referenced
    ⟨portfolio, entries.reverse, records.length - entries.reverse.length, halted⟩
  rw [List.filterMap_reverse, hworked.filterMap_reference? hcheck hb] at hseen
  have hsnd := hperm.map Prod.snd
  rw [hseen] at hsnd
  have hnodup : (second.map Prod.snd).Nodup :=
    hsnd.nodup_iff.mpr (List.nodup_reverse.mpr (hworked.nodup_seen hcheck hb))
  have hnames : ∀ p ∈ second, s.Names portfolio (b₂.claims portfolio) p.2.text := by
    intro p hp
    have hmem : p.2 ∈ seen := by
      rw [← List.mem_reverse]
      exact hsnd.mem_iff.mp (List.mem_map_of_mem hp)
    refine (hworked.names_of_mem_seen hcheck hb hmem).mono fun c hc => ?_
    rw [hclaims]
    exact List.mem_append_right _ hc
  have hagain := (worked_ofReferenced hhistory₂ hnames hnodup).value_backfill hcheck
  rw [List.reverse_reverse, List.length_map, List.length_map, Nat.sub_self] at hagain
  obtain ⟨hresult₂, hafter₂, -⟩ :=
    h.serves.value (s.asks_backfill code (second.map .ofReferenced)) hkeeps hhistory₂
  rw [hagain] at hresult₂ hafter₂
  refine ⟨by rw [Program.result_run, hresult₂], fun other => ?_⟩
  rw [Program.state_run]
  exact ⟨_, h.serves.buckets hkeeps hhistory₂ other, h.serves.buckets hafter₂ hhistory₂ other⟩

/-- Whatever was claimed before, under whatever capacities: on either store a batch may be run again
with the references that it left its records with, whatever is claimed in between. -/
theorem batches_may_run_again (folder : Option String) (clock : Nat → Timestamp)
    {earlier : List Call} (hearlier : ∀ c ∈ earlier, c.IsBounded) (s : Settings) {code : Int}
    {portfolio : PortfolioCode} (hcheck : s.check code = .ok portfolio)
    (records : List LegacyRecord) :
    RunsAgain (LedgerStore.serve folder clock) s code portfolio
        (converse (LedgerStore.serve folder clock) earlier .empty).2 records ∧
      RunsAgain SharedDatabase.answer s code portfolio
        (converse SharedDatabase.answer earlier .fresh).2 records := by
  constructor
  · obtain ⟨b, hkeeps, hhistory, -⟩ := (LedgerStore.bookkeeping folder clock).reached hearlier
    exact runsAgain (LedgerStore.bookkeeping folder clock) hcheck hkeeps hhistory records
  · obtain ⟨b, hkeeps, hhistory, -⟩ := SharedDatabase.bookkeeping.reached hearlier
    exact runsAgain SharedDatabase.bookkeeping hcheck hkeeps hhistory records

/-- The two records that the batch leaves with a reference keep it after one more claim, also in the
other order. -/
theorem batches_may_run_again_four_records :
    ((threeOfOneDigit.backfill 7
      [⟨"second", some "7A1"⟩, ⟨"first", some "7A3"⟩]).run SharedDatabase.answer
        (converse SharedDatabase.answer [.claim ⟨7⟩ ⟨⟨1⟩, 1⟩ 3]
          (afterBatch SharedDatabase.answer threeOfOneDigit 7 fourRecords
            (converse SharedDatabase.answer twoOfThree .fresh).2)).2).result =
      .ok ⟨⟨7⟩, [⟨"second", .kept ⟨"7A1"⟩⟩, ⟨"first", .kept ⟨"7A3"⟩⟩], 0, none⟩ := by
  have hseven : threeOfOneDigit.check 7 = .ok ⟨7⟩ := by decide
  have hbounded : ∀ c ∈ twoOfThree, c.IsBounded := by decide
  obtain ⟨report, hresult, hagain⟩ :=
    (batches_may_run_again none (fun _ => .epoch) hbounded _ hseven fourRecords).2
  have hreferenced : ((threeOfOneDigit.backfill 7 fourRecords).run SharedDatabase.answer
      (converse SharedDatabase.answer twoOfThree .fresh).2).result.map BatchReport.referenced =
        .ok [("first", ⟨"7A3"⟩), ("second", ⟨"7A1"⟩)] := by rfl
  rw [hresult] at hreferenced
  refine (hagain [("second", ⟨"7A1"⟩), ("first", ⟨"7A3"⟩)] [.claim ⟨7⟩ ⟨⟨1⟩, 1⟩ 3] _ ?_ (by decide)
    rfl).1
  rw [Except.ok.inj hreferenced]
  exact List.Perm.swap _ _ []

end Settings

end ReferenceMint
