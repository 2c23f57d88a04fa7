import ReferenceMint.Proofs.Batch.Steps

/-!
# What becomes of a batch

What a record of a batch meets depends on what the records before it did: they may have claimed
sequences, and their references are remembered. Still its outcome is decided by the claims from
before the batch. For what the batch itself has claimed it remembers as well, so a text is kept
exactly if it was claimed before the batch and no earlier record carries it
(`Settings.Account.keeps_iff`).

The invariant (`Settings.Account`) says which references are remembered: those of the claims of the
batch, and those that earlier records carry and that were claimed before it. With it
`batches_are_worked_off` tells the whole outcome of a batch, for both stores and from every state
that calls lead to.
-/

namespace ReferenceMint

open Store

/-- Each entry counts once. -/
theorem BatchReport.counts (r : BatchReport) :
    r.assigned + r.kept + r.failed = r.entries.length := by
  obtain ⟨portfolio, entries, unprocessed, halted⟩ := r
  unfold assigned kept failed count
  induction entries with
  | nil => rfl
  | cons e entries ih =>
    simp only [List.countP_cons, List.length_cons] at ih ⊢
    cases e.outcome <;> simp only [Bool.false_eq_true, if_true, if_false] <;> omega

namespace Settings

variable {s : Settings} {code : Int} {portfolio : PortfolioCode} {b b' : Book}
  {done : List LegacyRecord} {entries : List BatchEntry} {seen : List Reference} {text : String}

/-- The text is read as the triple of one of the claims from the portfolio. -/
def Names (s : Settings) (portfolio : PortfolioCode) (claims : List Claim) (text : String) : Prop :=
  ∃ c ∈ claims, s.layout.read text = .ok (tripleOf portfolio c)

/-- What buckets recognize are the texts that name one of the claims behind them. -/
theorem recognizes_iff (hb : b.HasHistory) :
    s.Recognizes portfolio (b.rows portfolio) text ↔
      s.Names portfolio (b.claims portfolio) text := by
  unfold Recognizes Names
  constructor
  · rintro ⟨⟨owner, letter, sequence⟩, hread, rfl, hissued⟩
    obtain ⟨c, hc, rfl, rfl⟩ := (hb owner).issued_iff.mp hissued
    exact ⟨c, hc, hread⟩
  · rintro ⟨c, hc, hread⟩
    exact ⟨_, hread, rfl, (hb portfolio).issued_iff.mpr ⟨c, hc, rfl, rfl⟩⟩

/-- What names one of some claims names one of more claims. -/
theorem Names.mono {claims more : List Claim} (h : s.Names portfolio claims text)
    (hsub : ∀ c ∈ claims, c ∈ more) : s.Names portfolio more text := by
  obtain ⟨c, hc, hread⟩ := h
  exact ⟨c, hsub c hc, hread⟩

/-- No text names both a claim and an earlier one. -/
theorem not_names_of_names {news olds : List Claim} {rows : List Bucket}
    (h : History portfolio (news ++ olds) rows) (hnew : s.Names portfolio news text) :
    ¬ s.Names portfolio olds text := by
  rintro ⟨old, hold, hread⟩
  obtain ⟨c, hc, hread'⟩ := hnew
  have hsame : tripleOf portfolio old = tripleOf portfolio c :=
    Except.ok.inj (hread.symm.trans hread')
  obtain ⟨-, hletter, hsequence⟩ := Triple.mk.inj hsame
  -- Ranks go up along a history, and they are those of the triples.
  have hlt := (List.pairwise_append.mp h.pairwise_rank).2.2 c hc old hold
  unfold Claim.rank at hlt
  rw [hletter, hsequence] at hlt
  exact Nat.lt_irrefl _ hlt

/-! ## The references that are remembered -/

/-- The account of a batch after some records: the book has new claims, and the references that are
remembered are those of the new claims, and those that records carry and that name an old claim. -/
structure Account (s : Settings) (portfolio : PortfolioCode) (b : Book) (done : List LegacyRecord)
    (seen : List Reference) (b' : Book) (news : List Claim) : Prop where
  /-- The book has a history. -/
  history : b'.HasHistory
  /-- The new claims come after the old ones. -/
  claims : b'.claims portfolio = news ++ b.claims portfolio
  /-- What is remembered. -/
  remembered : ∀ r, r ∈ seen ↔ s.Names portfolio news r.text ∨
    ((∃ record ∈ done, record.carried = some r.text) ∧
      s.Names portfolio (b.claims portfolio) r.text)

/-- The text names a claim, and none of the earlier records carries it. -/
def Keeps (s : Settings) (portfolio : PortfolioCode) (claims : List Claim)
    (earlier : List LegacyRecord) (text : String) : Prop :=
  s.Names portfolio claims text ∧ ∀ record ∈ earlier, record.carried ≠ some text

/-- Whether a text is kept is decided by the claims from before the batch. -/
theorem Account.keeps_iff {news : List Claim} (h : Account s portfolio b done seen b' news) :
    s.Recognizes portfolio (b'.rows portfolio) text ∧ ⟨text⟩ ∉ seen ↔
      s.Keeps portfolio (b.claims portfolio) done text := by
  have hhistory := h.history portfolio
  rw [h.claims] at hhistory
  rw [recognizes_iff h.history, h.claims, h.remembered]
  constructor
  · rintro ⟨⟨c, hc, hread⟩, hfresh⟩
    rcases List.mem_append.mp hc with hc | hc
    · exact absurd (.inl ⟨c, hc, hread⟩) hfresh
    · have hold : s.Names portfolio (b.claims portfolio) text := ⟨c, hc, hread⟩
      exact ⟨hold, fun record hrecord hcarried =>
        hfresh (.inr ⟨⟨record, hrecord, hcarried⟩, hold⟩)⟩
  · rintro ⟨hold, hearlier⟩
    refine ⟨hold.mono fun c hc => List.mem_append_right _ hc, ?_⟩
    rintro (hnew | ⟨⟨record, hrecord, hcarried⟩, -⟩)
    · exact not_names_of_names hhistory hnew hold
    · exact hearlier record hrecord hcarried

/-- One more record carries a text if it does itself. -/
theorem exists_carried_append {next : LegacyRecord} :
    (∃ record ∈ done ++ [next], record.carried = some text) ↔
      (∃ record ∈ done, record.carried = some text) ∨ next.carried = some text := by
  simp only [List.mem_append, List.mem_singleton, or_and_right, exists_or, exists_eq_left]

/-- A text names one of a claim and others if it names the claim or one of the others. -/
theorem names_cons {c : Claim} {claims : List Claim} :
    s.Names portfolio (c :: claims) text ↔
      s.layout.read text = .ok (tripleOf portfolio c) ∨ s.Names portfolio claims text := by
  unfold Names
  exact List.exists_mem_cons_iff _ _ _

/-- Just the reference of a triple is read as the triple. -/
theorem read_eq_ok_iff (hcheck : s.check code = .ok portfolio) {c : Claim} {r : Reference}
    (hwrite : s.layout.write (tripleOf portfolio c) = .ok r) {other : Reference} :
    s.layout.read other.text = .ok (tripleOf portfolio c) ↔ other = r := by
  constructor
  · intro hread
    have hother := Layout.write_of_read hread
    rw [hwrite] at hother
    exact (Except.ok.inj hother).symm
  · rintro rfl
    exact Layout.read_of_write (number_ne_zero hcheck) hwrite

section Step

variable {news : List Claim} {next : LegacyRecord}

/-- An assigned reference is remembered, and its claim is a new one. -/
theorem Account.assigned (h : Account s portfolio b done seen b' news)
    (hcheck : s.check code = .ok portfolio) {c : Claim} {r : Reference}
    (hcarried : next.carried = none)
    (hclaim : (cursorOf (b'.rows portfolio)).claim s.capacity = some c)
    (hwrite : s.layout.write (tripleOf portfolio c) = .ok r) :
    Account s portfolio b (done ++ [next]) (r :: seen) (b'.record portfolio c) (c :: news) := by
  refine ⟨hasHistory_record h.history hclaim, ?_, fun other => ?_⟩
  · rw [Book.claims_record_self, h.claims, List.cons_append]
  · rw [List.mem_cons, h.remembered, names_cons, read_eq_ok_iff hcheck hwrite,
      exists_carried_append, hcarried, or_assoc]
    simp only [reduceCtorEq, or_false]

/-- A reference that is kept is remembered. -/
theorem Account.kept (h : Account s portfolio b done seen b' news)
    (hcarried : next.carried = some text)
    (hkeeps : s.Keeps portfolio (b.claims portfolio) done text) :
    Account s portfolio b (done ++ [next]) (⟨text⟩ :: seen) b' news := by
  refine ⟨h.history, h.claims, fun other => ?_⟩
  rw [List.mem_cons, h.remembered, exists_carried_append, hcarried]
  constructor
  · rintro (rfl | hnew | ⟨hearlier, hold⟩)
    · exact .inr ⟨.inr rfl, hkeeps.1⟩
    · exact .inl hnew
    · exact .inr ⟨.inl hearlier, hold⟩
  · rintro (hnew | ⟨hearlier | hself, hold⟩)
    · exact .inr (.inl hnew)
    · exact .inr (.inr ⟨hearlier, hold⟩)
    · left
      rw [Option.some.inj hself]

/-- What fails is not new: if it names an old claim, it is remembered already. -/
theorem Account.failed (h : Account s portfolio b done seen b' news)
    (hcarried : next.carried = some text)
    (hkeeps : ¬ s.Keeps portfolio (b.claims portfolio) done text) :
    Account s portfolio b (done ++ [next]) seen b' news := by
  refine ⟨h.history, h.claims, fun other => ?_⟩
  rw [h.remembered, exists_carried_append, hcarried]
  constructor
  · rintro (hnew | ⟨hearlier, hold⟩)
    · exact .inl hnew
    · exact .inr ⟨.inl hearlier, hold⟩
  · rintro (hnew | ⟨hearlier | hself, hold⟩)
    · exact .inl hnew
    · exact .inr ⟨hearlier, hold⟩
    · rw [← Option.some.inj hself] at hold ⊢
      by_contra hforgotten
      refine hkeeps ⟨hold, fun record hrecord hrecord' => hforgotten ?_⟩
      exact .inr ⟨⟨record, hrecord, hrecord'⟩, hold⟩

end Step

/-- Records that were worked off leave an account. -/
theorem Worked.account (h : Worked s portfolio b done entries seen b')
    (hcheck : s.check code = .ok portfolio) (hb : b.HasHistory) :
    ∃ news, Account s portfolio b done seen b' news := by
  induction h with
  | nil => exact ⟨[], hb, rfl, by simp [Names]⟩
  | @record done entries seen middle after next outcome seen' before step ih =>
    obtain ⟨news, hnews⟩ := ih
    have hcases := workOff_cases hcheck hnews.history next seen
    rw [step] at hcases
    cases hcases with
    | assigned c r carried claim write =>
      exact ⟨c :: news, hnews.assigned hcheck carried claim write⟩
    | kept text carried recognized fresh =>
      exact ⟨news, hnews.kept carried (hnews.keeps_iff.mp ⟨recognized, fresh⟩)⟩
    | failed text reason carried unknown =>
      exact ⟨news, hnews.failed carried fun hkeeps => unknown (hnews.keeps_iff.mpr hkeeps)⟩

/-! ## The report -/

/-- A batch whose records are all worked off is complete. -/
theorem Worked.value_backfill (h : Worked s portfolio b done entries seen b')
    (hcheck : s.check code = .ok portfolio) :
    (s.backfill code done).value Book.answer b =
      (.ok ⟨portfolio, entries.reverse, done.length - entries.reverse.length, none⟩, b') := by
  have hvalue := h.value_append []
  rw [List.append_nil] at hvalue
  rw [value_backfill_eq Book.answer hcheck, hvalue]
  rfl

/-- A batch stops at a record without a text that finds the space exhausted. -/
theorem Worked.value_backfill_of_exhausted (h : Worked s portfolio b done entries seen b')
    (hcheck : s.check code = .ok portfolio) {record : LegacyRecord} (back : List LegacyRecord)
    (hcarried : record.carried = none)
    (hclaim : (cursorOf (b'.rows portfolio)).claim s.capacity = none) :
    (s.backfill code (done ++ record :: back)).value Book.answer b =
      (.ok ⟨portfolio, entries.reverse, (done ++ record :: back).length - entries.reverse.length,
        some ⟨record.id, .outOfSpace portfolio⟩⟩, b') := by
  have hvalue := h.value_append (record :: back)
  rw [value_workOffFrom_cons, workOff_of_exhausted hcheck hcarried hclaim] at hvalue
  rw [value_backfill_eq Book.answer hcheck, hvalue]
  rfl

/-- How a batch ends after the records that were worked off: there are no others, or the first of
the others carries no text and finds the space exhausted. -/
def Ends (s : Settings) (portfolio : PortfolioCode) (b' : Book) (back : List LegacyRecord)
    (halted : Option BatchHalt) : Prop :=
  (back = [] ∧ halted = none) ∨ ∃ record rest, back = record :: rest ∧ record.carried = none ∧
    (cursorOf (b'.rows portfolio)).claim s.capacity = none ∧
    halted = some ⟨record.id, .outOfSpace portfolio⟩

/-- A batch works off its first records and then ends. -/
theorem value_backfill (hcheck : s.check code = .ok portfolio) (hb : b.HasHistory)
    (records : List LegacyRecord) :
    ∃ done back entries seen b' halted, records = done ++ back ∧
      Worked s portfolio b done entries seen b' ∧ s.Ends portfolio b' back halted ∧
      (s.backfill code records).value Book.answer b =
        (.ok ⟨portfolio, entries.reverse, records.length - entries.reverse.length, halted⟩,
          b') := by
  rcases worked_or_stuck hcheck hb records with ⟨entries, seen, b', hworked⟩ |
    ⟨front, record, back, entries, seen, b', rfl, hworked, hcarried, hclaim⟩
  · exact ⟨records, [], entries, seen, b', none, (List.append_nil _).symm, hworked, .inl ⟨rfl, rfl⟩,
      hworked.value_backfill hcheck⟩
  · exact ⟨front, record :: back, entries, seen, b', _, rfl, hworked,
      .inr ⟨record, back, rfl, hcarried, hclaim, rfl⟩,
      hworked.value_backfill_of_exhausted hcheck back hcarried hclaim⟩

/-- The state after a batch. -/
def afterBatch {σ : Type} (answer : (c : Call) → σ → Reply c × σ) (s : Settings) (code : Int)
    (records : List LegacyRecord) (state : σ) : σ :=
  ((s.backfill code records).run answer state).state

/-- What becomes of a batch of records of a portfolio, in a state where some claims have taken
effect and under settings that nobody else works with at the time. -/
structure WorksOff {σ : Type} (answer : (c : Call) → σ → Reply c × σ) (s : Settings) (code : Int)
    (portfolio : PortfolioCode) (claims : List Claim) (state : σ) (records : List LegacyRecord)
    (report : BatchReport) : Prop where
  /-- The batch ends with the report. -/
  result : ((s.backfill code records).run answer state).result = .ok report
  /-- It is a report on the portfolio. -/
  owned : report.portfolio = portfolio
  /-- The entries are for the first records, in order. -/
  ids : report.entries.map BatchEntry.id =
    (records.take report.entries.length).map LegacyRecord.id
  /-- A record that carries no text is assigned the reference that an issue would have given in its
  place, and so the one that the issue after as many issues as there were such records before
  gives. -/
  blank : ∀ i record entry, records[i]? = some record → report.entries[i]? = some entry →
    record.carried = none → ∃ r, entry.outcome = .assigned r ∧
      ((s.issue code).run answer (afterBatch answer s code (records.take i) state)).result = .ok r ∧
      ((s.issue code).run answer (afterIssues answer s code
        ((records.take i).countP fun record => record.carried.isNone) state)).result = .ok r
  /-- A record that carries a text keeps it if the text names one of the claims and no earlier
  record carries it, and fails otherwise. -/
  carried : ∀ i record entry text, records[i]? = some record → report.entries[i]? = some entry →
    record.carried = some text →
      (s.Keeps portfolio claims (records.take i) text ∧ entry.outcome = .kept ⟨text⟩) ∨
      (¬ s.Keeps portfolio claims (records.take i) text ∧ ∃ reason, entry.outcome = .failed reason)
  /-- A record that carries a text leaves all buckets as they are. -/
  unchanged : ∀ i record, i < report.entries.length → records[i]? = some record →
    record.carried ≠ none → ∀ other, ∃ rows,
      (answer (.buckets other) (afterBatch answer s code (records.take i) state)).1 = .ok rows ∧
      (answer (.buckets other) (afterBatch answer s code (records.take (i + 1)) state)).1 = .ok rows
  /-- All records are worked off, or the batch stops at the first record that carries no text and
  finds the space exhausted. -/
  ending : (report.entries.length = records.length ∧ report.halted = none) ∨
    ∃ record, records[report.entries.length]? = some record ∧ record.carried = none ∧
      ((s.issue code).run answer (afterBatch answer s code
        (records.take report.entries.length) state)).result = .error (.outOfSpace portfolio) ∧
      report.halted = some ⟨record.id, .outOfSpace portfolio⟩
  /-- The records from there on leave all buckets as they are. -/
  rest : ∀ other, ∃ rows,
    (answer (.buckets other) (afterBatch answer s code
      (records.take report.entries.length) state)).1 = .ok rows ∧
    (answer (.buckets other) (afterBatch answer s code records state)).1 = .ok rows
  /-- Each record was worked off or not. -/
  counted : report.entries.length + report.unprocessed = records.length
  /-- Each record that was worked off was assigned a reference, kept one, or failed. -/
  outcomes : report.assigned + report.kept + report.failed = report.entries.length
  /-- The batch stopped if and only if records are left. -/
  complete : report.halted = none ↔ report.unprocessed = 0

/-- Whether a text is kept depends on which claims there are. -/
theorem Keeps.of_mem_iff {claims others : List Claim} (h : s.Keeps portfolio claims done text)
    (hsame : ∀ c, c ∈ claims ↔ c ∈ others) : s.Keeps portfolio others done text :=
  ⟨h.1.mono fun c hc => (hsame c).mp hc, h.2⟩

section Served

variable {σ : Type} {answer : (c : Call) → σ → Reply c × σ} {keeps : σ → Book → Prop} {state : σ}
  {record : LegacyRecord} {entry : BatchEntry} {i : Nat} {claims : List Claim}

/-- On a store that serves the book, a batch leads to the book after its records. -/
theorem Worked.keeps_afterBatch (hworked : Worked s portfolio b done entries seen b')
    (h : Serves answer keeps) (hcheck : s.check code = .ok portfolio) (hstate : keeps state b)
    (hb : b.HasHistory) : keeps (afterBatch answer s code done state) b' := by
  have hkeeps := (h.value (s.asks_backfill code done) hstate hb).2.1
  rw [hworked.value_backfill hcheck] at hkeeps
  unfold afterBatch
  rw [Program.state_run]
  exact hkeeps

/-- A record without a text that was worked off was assigned the reference of an issue. -/
theorem Worked.blank_at (hworked : Worked s portfolio b done entries seen b')
    (h : Serves answer keeps) (hcheck : s.check code = .ok portfolio) (hstate : keeps state b)
    (hb : b.HasHistory) (hrecord : done[i]? = some record)
    (hentry : entries.reverse[i]? = some entry) (hcarried : record.carried = none) :
    ∃ r, entry.outcome = .assigned r ∧
      ((s.issue code).run answer (afterBatch answer s code (done.take i) state)).result = .ok r ∧
      ((s.issue code).run answer (afterIssues answer s code
        ((done.take i).countP fun record => record.carried.isNone) state)).result = .ok r := by
  obtain ⟨entries₁, seen₁, b₁, outcome, seen₂, b₂, hbefore, hstep, -, hself⟩ :=
    hworked.step_at hrecord
  obtain rfl := Option.some.inj (hself.symm.trans hentry)
  have hhistory := hbefore.hasHistory hcheck hb
  have hcases := workOff_cases hcheck hhistory record seen₁
  rw [hstep] at hcases
  cases hcases with
  | kept text carried => exact absurd (hcarried.symm.trans carried) (by simp)
  | failed text reason carried => exact absurd (hcarried.symm.trans carried) (by simp)
  | assigned c r carried claim write =>
    have hissue := issue_of_claim hcheck claim write
    have hbatch :=
      h.value (s.asks_issue code) (hbefore.keeps_afterBatch h hcheck hstate hb) hhistory
    have hissues := keeps_afterIssues h s code hstate hb
      ((done.take i).countP fun record => record.carried.isNone)
    rw [← hbefore.eq_afterIssues hcheck hb] at hissues
    refine ⟨r, rfl, ?_, ?_⟩
    · rw [Program.result_run, hbatch.1, hissue]
    · rw [Program.result_run, (h.value (s.asks_issue code) hissues.1 hhistory).1, hissue]

/-- A record with a text that was worked off keeps it or fails, and leaves the book as it is. -/
theorem Worked.carried_at (hworked : Worked s portfolio b done entries seen b')
    (hcheck : s.check code = .ok portfolio) (hb : b.HasHistory) (hrecord : done[i]? = some record)
    (hcarried : record.carried = some text) :
    ∃ entries₁ seen₁ entries₂ seen₂ b₁ outcome,
      Worked s portfolio b (done.take i) entries₁ seen₁ b₁ ∧
      Worked s portfolio b (done.take (i + 1)) entries₂ seen₂ b₁ ∧
      entries.reverse[i]? = some ⟨record.id, outcome⟩ ∧
      ((s.Keeps portfolio (b.claims portfolio) (done.take i) text ∧ outcome = .kept ⟨text⟩) ∨
        (¬ s.Keeps portfolio (b.claims portfolio) (done.take i) text ∧
          ∃ reason, outcome = .failed reason)) := by
  obtain ⟨entries₁, seen₁, b₁, outcome, seen₂, b₂, hbefore, hstep, hafter, hself⟩ :=
    hworked.step_at hrecord
  obtain ⟨news, hnews⟩ := hbefore.account hcheck hb
  have hcases := workOff_cases hcheck hnews.history record seen₁
  rw [hstep] at hcases
  cases hcases with
  | assigned c r carried => exact absurd (hcarried.symm.trans carried) (by simp)
  | kept other carried recognized fresh =>
    obtain rfl := Option.some.inj (hcarried.symm.trans carried)
    exact ⟨_, _, _, _, b₁, _, hbefore, hafter, hself,
      .inl ⟨hnews.keeps_iff.mp ⟨recognized, fresh⟩, rfl⟩⟩
  | failed other reason carried unknown =>
    obtain rfl := Option.some.inj (hcarried.symm.trans carried)
    exact ⟨_, _, _, _, b₁, _, hbefore, hafter, hself,
      .inr ⟨fun hkeeps => unknown (hnews.keeps_iff.mpr hkeeps), reason, rfl⟩⟩

/-- A record with a text that was worked off keeps it or fails, depending on the claims from before
the batch. -/
theorem Worked.judged_at (hworked : Worked s portfolio b done entries seen b')
    (hcheck : s.check code = .ok portfolio) (hb : b.HasHistory)
    (hclaims : ∀ c, c ∈ b.claims portfolio ↔ c ∈ claims) (hrecord : done[i]? = some record)
    (hentry : entries.reverse[i]? = some entry) (hcarried : record.carried = some text) :
    (s.Keeps portfolio claims (done.take i) text ∧ entry.outcome = .kept ⟨text⟩) ∨
      (¬ s.Keeps portfolio claims (done.take i) text ∧
        ∃ reason, entry.outcome = .failed reason) := by
  obtain ⟨entries₁, seen₁, entries₂, seen₂, b₁, outcome, -, -, hself, hkept⟩ :=
    hworked.carried_at hcheck hb hrecord hcarried
  obtain rfl := Option.some.inj (hself.symm.trans hentry)
  rcases hkept with ⟨hkeeps, hkept⟩ | ⟨hkeeps, hfailed⟩
  · exact .inl ⟨hkeeps.of_mem_iff hclaims, hkept⟩
  · exact .inr ⟨fun hkeeps' => hkeeps (hkeeps'.of_mem_iff fun c => (hclaims c).symm), hfailed⟩

/-- A record with a text leaves all buckets as they are. -/
theorem Worked.unchanged_at (hworked : Worked s portfolio b done entries seen b')
    (h : Serves answer keeps) (hcheck : s.check code = .ok portfolio) (hstate : keeps state b)
    (hb : b.HasHistory) (hrecord : done[i]? = some record) (hcarried : record.carried ≠ none)
    (other : PortfolioCode) : ∃ rows,
      (answer (.buckets other) (afterBatch answer s code (done.take i) state)).1 = .ok rows ∧
      (answer (.buckets other) (afterBatch answer s code (done.take (i + 1)) state)).1 =
        .ok rows := by
  obtain ⟨text, htext⟩ := Option.ne_none_iff_exists'.mp hcarried
  obtain ⟨entries₁, seen₁, entries₂, seen₂, b₁, outcome, hbefore, hafter, -⟩ :=
    hworked.carried_at hcheck hb hrecord htext
  have hsame := hbefore.hasHistory hcheck hb
  exact ⟨_, h.buckets (hbefore.keeps_afterBatch h hcheck hstate hb) hsame other,
    h.buckets (hafter.keeps_afterBatch h hcheck hstate hb) hsame other⟩

/-- Where a batch stops before its end, an issue finds the space exhausted. -/
theorem Worked.stops_at (hworked : Worked s portfolio b done entries seen b')
    (h : Serves answer keeps) (hcheck : s.check code = .ok portfolio) (hstate : keeps state b)
    (hb : b.HasHistory) {back : List LegacyRecord} {halted : Option BatchHalt}
    (hending : s.Ends portfolio b' back halted) :
    (back = [] ∧ halted = none) ∨ ∃ record, back.head? = some record ∧ record.carried = none ∧
      ((s.issue code).run answer (afterBatch answer s code done state)).result =
        .error (.outOfSpace portfolio) ∧
      halted = some ⟨record.id, .outOfSpace portfolio⟩ := by
  rcases hending with hnone | ⟨record, rest, rfl, hcarried, hclaim, hsome⟩
  · exact .inl hnone
  · refine .inr ⟨record, rfl, hcarried, ?_, hsome⟩
    have hdone := hworked.keeps_afterBatch h hcheck hstate hb
    rw [Program.result_run, (h.value (s.asks_issue code) hdone (hworked.hasHistory hcheck hb)).1,
      issue_of_exhausted hcheck hclaim]

/-- What a store that serves the book makes of a batch, when the first records of it were worked off
and the report has their entries. -/
theorem Worked.worksOff (hworked : Worked s portfolio b done entries seen b')
    (h : Serves answer keeps) (hcheck : s.check code = .ok portfolio) (hstate : keeps state b)
    (hb : b.HasHistory) (hclaims : ∀ c, c ∈ b.claims portfolio ↔ c ∈ claims)
    {back : List LegacyRecord} {halted : Option BatchHalt}
    (hvalue : (s.backfill code (done ++ back)).value Book.answer b =
      (.ok ⟨portfolio, entries.reverse, (done ++ back).length - entries.reverse.length, halted⟩,
        b'))
    (hending : s.Ends portfolio b' back halted) :
    WorksOff answer s code portfolio claims state (done ++ back)
      ⟨portfolio, entries.reverse, (done ++ back).length - entries.reverse.length, halted⟩ := by
  have hlength : entries.reverse.length = done.length := by
    rw [List.length_reverse, hworked.length_eq]
  have htake : ∀ i ≤ done.length, (done ++ back).take i = done.take i := fun i hi =>
    List.take_append_of_le_length hi
  have hall : (done ++ back).take entries.reverse.length = done := by
    rw [hlength, List.take_left]
  -- What stands in a place of the report stands in a place of the records that were worked off.
  have hget : ∀ {i record}, i < entries.reverse.length → (done ++ back)[i]? = some record →
      i < done.length ∧ done[i]? = some record := by
    intro i record hi hrecord
    rw [hlength] at hi
    rw [List.getElem?_append_left hi] at hrecord
    exact ⟨hi, hrecord⟩
  have hindex : ∀ {i entry}, entries.reverse[i]? = some entry → i < entries.reverse.length :=
    fun hentry => (List.getElem?_eq_some_iff.mp hentry).1
  have hhistory := hworked.hasHistory hcheck hb
  have hdone := hworked.keeps_afterBatch h hcheck hstate hb
  obtain ⟨hresult, hstate', -⟩ := h.value (s.asks_backfill code (done ++ back)) hstate hb
  rw [hvalue] at hresult hstate'
  rw [← Program.state_run] at hstate'
  have hstops := hworked.stops_at h hcheck hstate hb hending
  refine
    { result := by rw [Program.result_run, hresult]
      owned := rfl
      ids := ?_
      blank := fun i record entry hrecord hentry hcarried => ?_
      carried := fun i record entry text hrecord hentry hcarried => ?_
      unchanged := fun i record hi hrecord hcarried other => ?_
      ending := ?_
      rest := fun other => ?_
      counted := ?_
      outcomes := BatchReport.counts _
      complete := ?_ }
  · rw [hall]
    exact hworked.map_id
  · obtain ⟨hi, hrecord⟩ := hget (hindex hentry) hrecord
    rw [htake i (Nat.le_of_lt hi)]
    exact hworked.blank_at h hcheck hstate hb hrecord hentry hcarried
  · obtain ⟨hi, hrecord⟩ := hget (hindex hentry) hrecord
    rw [htake i (Nat.le_of_lt hi)]
    exact hworked.judged_at hcheck hb hclaims hrecord hentry hcarried
  · obtain ⟨hi, hrecord⟩ := hget hi hrecord
    rw [htake i (Nat.le_of_lt hi), htake (i + 1) hi]
    exact hworked.unchanged_at h hcheck hstate hb hrecord hcarried other
  · rw [hall]
    rcases hstops with ⟨rfl, hnone⟩ | ⟨record, hhead, hcarried, hissue, hsome⟩
    · refine .inl ⟨?_, hnone⟩
      rw [List.append_nil]
      exact hlength
    · refine .inr ⟨record, ?_, hcarried, hissue, hsome⟩
      rw [hlength, List.getElem?_append_right (Nat.le_refl _), Nat.sub_self,
        ← List.head?_eq_getElem?]
      exact hhead
  · rw [hall]
    exact ⟨_, h.buckets hdone hhistory other, h.buckets hstate' hhistory other⟩
  · show entries.reverse.length + ((done ++ back).length - entries.reverse.length) =
      (done ++ back).length
    rw [hlength, List.length_append]
    omega
  · show halted = none ↔ (done ++ back).length - entries.reverse.length = 0
    rw [hlength, List.length_append]
    rcases hstops with ⟨rfl, hnone⟩ | ⟨record, hhead, -, -, hsome⟩
    · simp [hnone]
    · have hlt := List.length_pos_of_mem (List.mem_of_mem_head? (Option.mem_def.mpr hhead))
      have hne : done.length + back.length - done.length ≠ 0 := by omega
      simp only [hsome, reduceCtorEq, hne]

/-- What a store that serves the book makes of a batch. -/
theorem exists_worksOff (h : Serves answer keeps) (hcheck : s.check code = .ok portfolio)
    (hstate : keeps state b) (hb : b.HasHistory)
    (hclaims : ∀ c, c ∈ b.claims portfolio ↔ c ∈ claims) (records : List LegacyRecord) :
    ∃ report, WorksOff answer s code portfolio claims state records report := by
  obtain ⟨done, back, entries, seen, b', halted, rfl, hworked, hending, hvalue⟩ :=
    value_backfill hcheck hb records
  exact ⟨_, hworked.worksOff h hcheck hstate hb hclaims hvalue hending⟩

end Served

/-- Whatever was claimed before, under whatever capacities: on either store a batch is worked off in
order, where what a record carries is judged by the claims from before the batch, and the other
records are assigned what issues would give in their place, until the space is exhausted. -/
theorem batches_are_worked_off (folder : Option String) (clock : Nat → Timestamp)
    {earlier : List Call} (hearlier : ∀ c ∈ earlier, c.IsBounded) (s : Settings) {code : Int}
    {portfolio : PortfolioCode} (hcheck : s.check code = .ok portfolio)
    (records : List LegacyRecord) :
    (∃ report, WorksOff (LedgerStore.serve folder clock) s code portfolio
        (claimsFrom portfolio (converse (LedgerStore.serve folder clock) earlier .empty).1)
        (converse (LedgerStore.serve folder clock) earlier .empty).2 records report) ∧
      ∃ report, WorksOff SharedDatabase.answer s code portfolio
        (claimsFrom portfolio (converse SharedDatabase.answer earlier .fresh).1)
        (converse SharedDatabase.answer earlier .fresh).2 records report := by
  constructor
  · obtain ⟨b, hkeeps, hhistory, hclaims⟩ :=
      (LedgerStore.bookkeeping folder clock).reached hearlier
    refine exists_worksOff (LedgerStore.bookkeeping folder clock).serves hcheck hkeeps hhistory
      (fun c => ?_) records
    rw [hclaims, List.mem_reverse]
  · obtain ⟨b, hkeeps, hhistory, hclaims⟩ := SharedDatabase.bookkeeping.reached hearlier
    refine exists_worksOff SharedDatabase.bookkeeping.serves hcheck hkeeps hhistory
      (fun c => ?_) records
    rw [hclaims, List.mem_reverse]

/-- Settings with one digit for a sequence, and room for three sequences under each letter. -/
def threeOfOneDigit : Settings := ofOneDigit 3 (by decide)

/-- Four records: one without a reference, one with the first reference of the portfolio between
blanks, one with the same reference, and one with the reference that the first record is
assigned. -/
def fourRecords : List LegacyRecord :=
  [⟨"first", none⟩, ⟨"second", some " 7A1 "⟩, ⟨"third", some "7A1"⟩, ⟨"fourth", some "7A3"⟩]

/-- The batch assigns one reference, keeps one, and fails the two records that carry what occurred
in it before. -/
theorem batches_are_worked_off_four_records :
    ∃ report, report.assigned = 1 ∧ report.kept = 1 ∧ report.failed = 2 ∧
      WorksOff SharedDatabase.answer threeOfOneDigit 7 ⟨7⟩
        (claimsFrom ⟨7⟩ (converse SharedDatabase.answer twoOfThree .fresh).1)
        (converse SharedDatabase.answer twoOfThree .fresh).2 fourRecords report := by
  have hseven : threeOfOneDigit.check 7 = .ok ⟨7⟩ := by decide
  have hbounded : ∀ c ∈ twoOfThree, c.IsBounded := by decide
  obtain ⟨report, hworks⟩ := (batches_are_worked_off none (fun _ => .epoch) hbounded
    _ hseven fourRecords).2
  have hcounts : ((threeOfOneDigit.backfill 7 fourRecords).run SharedDatabase.answer
      (converse SharedDatabase.answer twoOfThree .fresh).2).result.map
        (fun report => (report.assigned, report.kept, report.failed)) = .ok (1, 1, 2) := by rfl
  rw [hworks.result] at hcounts
  obtain ⟨hassigned, hcounts⟩ := Prod.mk.inj (Except.ok.inj hcounts)
  obtain ⟨hkept, hfailed⟩ := Prod.mk.inj hcounts
  exact ⟨report, hassigned, hkept, hfailed, hworks⟩

end Settings

end ReferenceMint
