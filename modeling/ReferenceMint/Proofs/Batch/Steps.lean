import ReferenceMint.Backfill
import ReferenceMint.Proofs.Reading
import ReferenceMint.Proofs.Succession

/-!
# Records of a batch, one by one

A record carries a text or none (`LegacyRecord.carried`). A text fails right away, or the reply
about the buckets decides, whatever store it comes from (`Settings.value_checkReference`). Without
others, working off a record goes in one of four ways (`Settings.workOff_cases`): without a text it
is assigned the next reference or finds the space exhausted, and with one it keeps it or fails,
which leaves the book as it is.

A batch works off its records in this way one after the other (`Worked`), up to the first that finds
the space exhausted or to its end (`Settings.worked_or_stuck`).
-/

namespace ReferenceMint

open Store

/-- The text that a record carries: its reference without white space around it, unless this is
empty. -/
def LegacyRecord.carried (record : LegacyRecord) : Option String :=
  match record.reference.map fun existing => Text.trim existing.toList with
  | none | some [] => none
  | some existing => some (String.ofList existing)

namespace Settings

variable {s : Settings} {code : Int} {portfolio : PortfolioCode} {record : LegacyRecord}
  {text : String} {seen : List Reference} {b b' : Book} {outcome : RecordOutcome}

/-! ## One record -/

/-- A record that carries no text is assigned a reference. -/
theorem workOff_of_none (h : record.carried = none) :
    s.workOff portfolio record seen = s.assign portfolio seen := by
  unfold LegacyRecord.carried at h
  unfold workOff
  generalize (record.reference.map fun existing => Text.trim existing.toList) = trimmed at h ⊢
  rcases trimmed with _ | _ | ⟨c, cs⟩
  · rfl
  · rfl
  · exact absurd h (by simp)

/-- The text that a record carries is checked. -/
theorem workOff_of_some (h : record.carried = some text) :
    s.workOff portfolio record seen = s.checkReference portfolio text seen := by
  unfold LegacyRecord.carried at h
  unfold workOff
  generalize (record.reference.map fun existing => Text.trim existing.toList) = trimmed at h ⊢
  rcases trimmed with _ | _ | ⟨c, cs⟩
  · exact absurd h (by simp)
  · exact absurd h (by simp)
  · rw [← Option.some.inj h]

/-- A record without a text is assigned the claim at the cursor. -/
theorem workOff_of_claim {c : Claim} {r : Reference} (hcheck : s.check code = .ok portfolio)
    (hcarried : record.carried = none)
    (hclaim : (cursorOf (b.rows portfolio)).claim s.capacity = some c)
    (hwrite : s.layout.write (tripleOf portfolio c) = .ok r) :
    (s.workOff portfolio record seen).value Book.answer b =
      (.ok (.assigned r, r :: seen), b.record portfolio c) := by
  rw [workOff_of_none hcarried]
  unfold assign
  rw [Program.value_map, issue_of_claim (check_number hcheck) hclaim hwrite]
  rfl

/-- Once the space is exhausted, a record without a text ends with an error. -/
theorem workOff_of_exhausted (hcheck : s.check code = .ok portfolio)
    (hcarried : record.carried = none)
    (hclaim : (cursorOf (b.rows portfolio)).claim s.capacity = none) :
    (s.workOff portfolio record seen).value Book.answer b =
      (.error (.outOfSpace portfolio), b) := by
  rw [workOff_of_none hcarried]
  unfold assign
  rw [Program.value_map, issue_of_exhausted (check_number hcheck) hclaim]
  rfl

/-- The text is a reference of the portfolio whose sequence the buckets have issued. -/
def Recognizes (s : Settings) (portfolio : PortfolioCode) (rows : List Bucket) (text : String) :
    Prop :=
  ∃ t, s.layout.read text = .ok t ∧ t.portfolio = portfolio ∧
    Bucket.issued rows t.letter t.sequence = true

/-- What becomes of a text that was read as the triple is decided by the reply about the buckets. -/
def decided (portfolio : PortfolioCode) (text : String) (triple : Triple) (seen : List Reference) :
    Except Failure (List Bucket) → Except AllocationError (RecordOutcome × List Reference)
  | .error failure => .error (.ofFailure failure)
  | .ok rows => .ok (verdict portfolio ⟨text⟩ triple rows seen)

/-- A text is kept whose sequence was issued, if it did not occur before. -/
theorem decided_of_issued {triple : Triple} {rows : List Bucket}
    (hissued : Bucket.issued rows triple.letter triple.sequence = true) (hfresh : ⟨text⟩ ∉ seen) :
    decided portfolio text triple seen (.ok rows) = .ok (.kept ⟨text⟩, ⟨text⟩ :: seen) := by
  simp [decided, verdict, hissued, hfresh]

/-- Any other text fails. -/
theorem decided_of_not_issued {triple : Triple} {rows : List Bucket}
    (h : ¬ (Bucket.issued rows triple.letter triple.sequence = true ∧ ⟨text⟩ ∉ seen)) :
    ∃ reason, decided portfolio text triple seen (.ok rows) = .ok (.failed reason, seen) := by
  cases hissued : Bucket.issued rows triple.letter triple.sequence with
  | false => simp [decided, verdict, hissued]
  | true =>
    have hseen : ⟨text⟩ ∈ seen := not_not.mp fun hfresh => h ⟨hissued, hfresh⟩
    simp [decided, verdict, hissued, hseen]

/-- A text fails without a look at the buckets, whatever they are, or the reply about them
decides. -/
theorem value_checkReference {σ : Type} (answer : (c : Call) → σ → Reply c × σ) (s : Settings)
    (portfolio : PortfolioCode) (text : String) (seen : List Reference) (state : σ) :
    ((∀ rows, ¬ s.Recognizes portfolio rows text) ∧ ∃ reason,
      (s.checkReference portfolio text seen).value answer state =
        (.ok (.failed reason, seen), state)) ∨
    ∃ triple, s.layout.read text = .ok triple ∧ triple.portfolio = portfolio ∧
      (s.checkReference portfolio text seen).value answer state =
        (decided portfolio text triple seen (answer (.buckets portfolio) state).1,
          (answer (.buckets portfolio) state).2) := by
  unfold checkReference
  cases hread : s.layout.read text with
  | error cause =>
    refine .inl ⟨?_, _, rfl⟩
    rintro rows ⟨triple, hother, -⟩
    exact absurd (hread.symm.trans hother) (by simp)
  | ok triple =>
    by_cases howner : triple.portfolio = portfolio
    · refine .inr ⟨triple, rfl, howner, ?_⟩
      -- What was read is written as the text itself.
      simp only [howner, ne_eq, not_true_eq_false, if_false, Layout.write_of_read hread,
        Program.value]
      generalize answer (.buckets portfolio) state = outcome
      obtain ⟨failure | rows, after⟩ := outcome <;> rfl
    · refine .inl ⟨?_, _, by simp only [ne_eq, howner, not_false_eq_true, if_true]; rfl⟩
      rintro rows ⟨other, hother, hother', -⟩
      obtain rfl := Except.ok.inj (hread.symm.trans hother)
      exact howner hother'

/-- A text that was read as a triple of the portfolio is recognized exactly if its sequence was
issued. -/
theorem recognizes_of_read {triple : Triple} {rows : List Bucket}
    (hread : s.layout.read text = .ok triple) (howner : triple.portfolio = portfolio) :
    s.Recognizes portfolio rows text ↔
      Bucket.issued rows triple.letter triple.sequence = true := by
  constructor
  · rintro ⟨other, hother, -, hissued⟩
    rw [Except.ok.inj (hread.symm.trans hother)]
    exact hissued
  · exact fun hissued => ⟨triple, hread, howner, hissued⟩

/-- A text that is recognized and did not occur before is kept, and any other one fails. -/
theorem checkReference_cases (s : Settings) (portfolio : PortfolioCode) (text : String)
    (seen : List Reference) (b : Book) :
    (s.Recognizes portfolio (b.rows portfolio) text ∧ ⟨text⟩ ∉ seen ∧
      (s.checkReference portfolio text seen).value Book.answer b =
        (.ok (.kept ⟨text⟩, ⟨text⟩ :: seen), b)) ∨
    (¬ (s.Recognizes portfolio (b.rows portfolio) text ∧ ⟨text⟩ ∉ seen) ∧
      ∃ reason, (s.checkReference portfolio text seen).value Book.answer b =
        (.ok (.failed reason, seen), b)) := by
  rcases value_checkReference Book.answer s portfolio text seen b with
    ⟨hunknown, hfailed⟩ | ⟨triple, hread, howner, hdecided⟩
  · exact .inr ⟨fun h => hunknown _ h.1, hfailed⟩
  · rw [hdecided, recognizes_of_read hread howner]
    simp only [Book.answer]
    by_cases h : Bucket.issued (b.rows portfolio) triple.letter triple.sequence = true ∧
        ⟨text⟩ ∉ seen
    · exact .inl ⟨h.1, h.2, by rw [decided_of_issued h.1 h.2]⟩
    · obtain ⟨reason, hfailed⟩ := decided_of_not_issued h
      exact .inr ⟨h, reason, by rw [hfailed]⟩

/-- A record goes in one of four ways: it is assigned the next reference, it finds the space
exhausted, it keeps what it carries, or it fails. -/
inductive WorkOff (s : Settings) (portfolio : PortfolioCode) (record : LegacyRecord)
    (seen : List Reference) (b : Book) :
    Except AllocationError (RecordOutcome × List Reference) × Book → Prop
  /-- Without a text it is assigned the reference of the claim at the cursor. -/
  | assigned (c : Claim) (r : Reference) (carried : record.carried = none)
      (claim : (cursorOf (b.rows portfolio)).claim s.capacity = some c)
      (write : s.layout.write (tripleOf portfolio c) = .ok r) :
      WorkOff s portfolio record seen b
        (.ok (.assigned r, r :: seen), b.record portfolio c)
  /-- Without a text and without a claim at the cursor the space is exhausted. -/
  | exhausted (carried : record.carried = none)
      (claim : (cursorOf (b.rows portfolio)).claim s.capacity = none) :
      WorkOff s portfolio record seen b (.error (.outOfSpace portfolio), b)
  /-- A text that is recognized and did not occur before is kept. -/
  | kept (text : String) (carried : record.carried = some text)
      (recognized : s.Recognizes portfolio (b.rows portfolio) text) (fresh : ⟨text⟩ ∉ seen) :
      WorkOff s portfolio record seen b (.ok (.kept ⟨text⟩, ⟨text⟩ :: seen), b)
  /-- Any other text fails. -/
  | failed (text reason : String) (carried : record.carried = some text)
      (unknown : ¬ (s.Recognizes portfolio (b.rows portfolio) text ∧ ⟨text⟩ ∉ seen)) :
      WorkOff s portfolio record seen b (.ok (.failed reason, seen), b)

/-- These are all the ways in which a record goes. -/
theorem workOff_cases (hcheck : s.check code = .ok portfolio) (hb : b.HasHistory)
    (record : LegacyRecord) (seen : List Reference) :
    WorkOff s portfolio record seen b ((s.workOff portfolio record seen).value Book.answer b) := by
  cases hcarried : record.carried with
  | none =>
    cases hclaim : (cursorOf (b.rows portfolio)).claim s.capacity with
    | none =>
      rw [workOff_of_exhausted hcheck hcarried hclaim]
      exact .exhausted hcarried hclaim
    | some c =>
      obtain ⟨r, hwrite⟩ := write_of_claim (hb portfolio).tidy hclaim
      rw [workOff_of_claim hcheck hcarried hclaim hwrite]
      exact .assigned c r hcarried hclaim hwrite
  | some text =>
    rw [workOff_of_some hcarried]
    rcases s.checkReference_cases portfolio text seen b with
      ⟨hrecognized, hfresh, hvalue⟩ | ⟨hunknown, reason, hvalue⟩
    · rw [hvalue]
      exact .kept text hcarried hrecognized hfresh
    · rw [hvalue]
      exact .failed text reason hcarried hunknown

/-! ## Records one after the other -/

/-- The records were worked off one after the other, none of them with an error: what became of
them, with the latest first, the references that occurred, and the book after them. -/
inductive Worked (s : Settings) (portfolio : PortfolioCode) (b : Book) :
    List LegacyRecord → List BatchEntry → List Reference → Book → Prop
  /-- No record was worked off yet. -/
  | nil : Worked s portfolio b [] [] [] b
  /-- One more record. -/
  | record {done : List LegacyRecord} {entries : List BatchEntry} {seen : List Reference}
      {middle after : Book} {next : LegacyRecord} {outcome : RecordOutcome}
      {seen' : List Reference} (before : Worked s portfolio b done entries seen middle)
      (step : (s.workOff portfolio next seen).value Book.answer middle =
        (.ok (outcome, seen'), after)) :
      Worked s portfolio b (done ++ [next]) (⟨next.id, outcome⟩ :: entries) seen' after

section Run

variable {done rest records : List LegacyRecord} {entries : List BatchEntry}

/-- Records that were worked off come first in a batch, and then it goes on with the others. -/
theorem Worked.value_append (h : Worked s portfolio b done entries seen b')
    (rest : List LegacyRecord) :
    (s.workOffFrom portfolio (done ++ rest) [] []).value Book.answer b =
      (s.workOffFrom portfolio rest entries seen).value Book.answer b' := by
  induction h generalizing rest with
  | nil => rfl
  | @record done entries seen middle after next outcome seen' before step ih =>
    rw [List.append_assoc, ih]
    show (s.workOffFrom portfolio (next :: rest) entries seen).value Book.answer middle = _
    rw [workOffFrom, Program.value_bind, step]

/-- There is one entry for each record, with its identifier. -/
theorem Worked.map_id (h : Worked s portfolio b done entries seen b') :
    entries.reverse.map BatchEntry.id = done.map LegacyRecord.id := by
  induction h with
  | nil => rfl
  | record before step ih =>
    rw [List.reverse_cons, List.map_append, List.map_append, ih]
    rfl

/-- There are as many entries as records. -/
theorem Worked.length_eq (h : Worked s portfolio b done entries seen b') :
    entries.length = done.length := by
  have hlength := congrArg List.length h.map_id
  rw [List.length_map, List.length_map, List.length_reverse] at hlength
  exact hlength

/-- Each record was worked off after the ones before it. -/
theorem Worked.step_at (h : Worked s portfolio b done entries seen b') {i : Nat}
    (hrecord : done[i]? = some record) :
    ∃ entries₁ seen₁ b₁ outcome seen₂ b₂,
      Worked s portfolio b (done.take i) entries₁ seen₁ b₁ ∧
      (s.workOff portfolio record seen₁).value Book.answer b₁ = (.ok (outcome, seen₂), b₂) ∧
      Worked s portfolio b (done.take (i + 1)) (⟨record.id, outcome⟩ :: entries₁) seen₂ b₂ ∧
      entries.reverse[i]? = some ⟨record.id, outcome⟩ := by
  induction h with
  | nil => simp at hrecord
  | @record done entries seen middle after next outcome seen' before step ih =>
    have hlength := before.length_eq
    have hi : i < done.length + 1 := by
      have hlt := (List.getElem?_eq_some_iff.mp hrecord).1
      rw [List.length_append, List.length_singleton] at hlt
      exact hlt
    rcases Nat.lt_or_eq_of_le (Nat.le_of_lt_succ hi) with hlt | rfl
    · rw [List.getElem?_append_left hlt] at hrecord
      obtain ⟨entries₁, seen₁, b₁, outcome₁, seen₂, b₂, hbefore, hstep, hafter, hentry⟩ :=
        ih hrecord
      refine ⟨entries₁, seen₁, b₁, outcome₁, seen₂, b₂, ?_, hstep, ?_, ?_⟩
      · rw [List.take_append_of_le_length (by omega)]
        exact hbefore
      · rw [List.take_append_of_le_length (by omega)]
        exact hafter
      · rw [List.reverse_cons, List.getElem?_append_left (by rw [List.length_reverse]; omega)]
        exact hentry
    · obtain rfl : next = record := by simpa using hrecord
      refine ⟨entries, seen, middle, outcome, seen', after, ?_, step, ?_, ?_⟩
      · rw [List.take_left]
        exact before
      · rw [List.take_of_length_le (by simp)]
        exact before.record step
      · rw [List.reverse_cons, List.getElem?_append_right (by rw [List.length_reverse]; omega),
          List.length_reverse, hlength, Nat.sub_self]
        rfl

/-- A book stays one with a history while records are worked off. -/
theorem Worked.hasHistory (h : Worked s portfolio b done entries seen b')
    (hcheck : s.check code = .ok portfolio) (hb : b.HasHistory) : b'.HasHistory := by
  induction h with
  | nil => exact hb
  | @record done entries seen middle after next outcome seen' before step ih =>
    have hcases := workOff_cases hcheck ih next seen
    rw [step] at hcases
    cases hcases with
    | assigned c r carried claim write => exact hasHistory_record ih claim
    | kept => exact ih
    | failed => exact ih

/-- The book after records is the one after an issue for each record without a text. -/
theorem Worked.eq_afterIssues (h : Worked s portfolio b done entries seen b')
    (hcheck : s.check code = .ok portfolio) (hb : b.HasHistory) :
    b' = afterIssues Book.answer s code (done.countP fun record => record.carried.isNone) b := by
  induction h with
  | nil => rfl
  | @record done entries seen middle after next outcome seen' before step ih =>
    have hcases := workOff_cases hcheck (before.hasHistory hcheck hb) next seen
    rw [step] at hcases
    rw [List.countP_append, List.countP_singleton]
    cases hcases with
    | assigned c r carried claim write =>
      rw [carried]
      show _ = afterIssues Book.answer s code (_ + 1) b
      rw [afterIssues_succ, ← ih, issue_of_claim hcheck claim write]
    | kept text carried recognized fresh =>
      rw [carried]
      exact ih
    | failed text reason carried unknown =>
      rw [carried]
      exact ih

/-- Either all records are worked off, or one without a text finds the space exhausted after those
before it. -/
theorem worked_or_stuck (hcheck : s.check code = .ok portfolio) (hb : b.HasHistory)
    (records : List LegacyRecord) :
    (∃ entries seen b', Worked s portfolio b records entries seen b') ∨
      ∃ front record back entries seen b', records = front ++ record :: back ∧
        Worked s portfolio b front entries seen b' ∧ record.carried = none ∧
        (cursorOf (b'.rows portfolio)).claim s.capacity = none := by
  induction records using List.reverseRecOn with
  | nil => exact .inl ⟨[], [], b, .nil⟩
  | append_singleton front next ih =>
    rcases ih with ⟨entries, seen, b', hworked⟩ |
      ⟨front, record, back, entries, seen, b', rfl, hworked, hcarried, hclaim⟩
    · have hcases := workOff_cases hcheck (hworked.hasHistory hcheck hb) next seen
      generalize hvalue : (s.workOff portfolio next seen).value Book.answer b' = value at hcases
      cases hcases with
      | assigned => exact .inl ⟨_, _, _, hworked.record hvalue⟩
      | exhausted carried claim =>
        exact .inr ⟨front, next, [], entries, seen, b', rfl, hworked, carried, claim⟩
      | kept => exact .inl ⟨_, _, _, hworked.record hvalue⟩
      | failed => exact .inl ⟨_, _, _, hworked.record hvalue⟩
    · right
      refine ⟨front, record, back ++ [next], entries, seen, b', ?_, hworked, hcarried, hclaim⟩
      rw [List.append_assoc, List.cons_append]

end Run

end Settings

end ReferenceMint
