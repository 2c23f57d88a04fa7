import ReferenceMint.Proofs.Batch.Running
import ReferenceMint.Proofs.Remaining
import ReferenceMint.Proofs.Store.Serving

/-!
# Issues one after the other

Without others an issue never loses a race: it takes the claim at the cursor in its first try, or
the space is exhausted (`Settings.issue_of_claim`, `Settings.issue_of_exhausted`). Each issue moves
the place of the cursor by one, until every sequence is passed (`Settings.place_afterIssues`). So
from any state, issues one after the other give what remains under the capacity of the settings, in
order, and then nothing more (`issues_give_what_remains`), whatever capacities the claims before
had.
-/

namespace ReferenceMint

open Store

/-- The cursor of tidy buckets stands at a number from one on. -/
theorem Store.Tidy.one_le_index_cursorOf {portfolio : PortfolioCode} {rows : List Bucket}
    (h : Tidy portfolio rows) : 1 ≤ (cursorOf rows).index.toNat := by
  unfold cursorOf lastCursor
  cases hlast : rows.getLast? with
  | none => exact Nat.le_refl 1
  | some last => exact h.started last (List.mem_of_getLast? hlast)

namespace Settings

variable {σ : Type} {s : Settings} {code : Int} {portfolio : PortfolioCode} {b : Book} {c : Claim}

/-- The largest of the capacity and one is the capacity. -/
theorem toNat_capacity_pos (s : Settings) : 1 ≤ s.capacity.toNat :=
  UInt32.le_iff_toNat_le.mp s.capacity_pos

/-! ## One issue -/

/-- What an allocation gives on the book: the claim at the cursor in the first try, or nothing if
the space is exhausted. -/
def allotted (s : Settings) (portfolio : PortfolioCode) (b : Book) :
    Except AllocationError Allocation × Book :=
  match (cursorOf (b.rows portfolio)).claim s.capacity with
  | some c => (.ok (.ofClaim portfolio c 1), b.record portfolio c)
  | none => (.error (.outOfSpace portfolio), b)

/-- A try at the cursor of the book is not a conflict. -/
theorem value_tryOnce (lost : Option Cursor → Allocating Allocation) :
    (s.tryOnce portfolio 1 (cursorOf (b.rows portfolio)) lost).value Book.answer b =
      s.allotted portfolio b := by
  unfold allotted
  cases hclaim : (cursorOf (b.rows portfolio)).claim s.capacity with
  | none =>
    unfold tryOnce
    rw [hclaim]
    rfl
  | some c =>
    have hanswer := Book.answer_claim_of_ok (plan_of_claim hclaim)
    rw [value_tryOnce_eq Book.answer hclaim, hanswer]

/-- The first try decides an allocation. -/
theorem value_allocate (hcheck : s.check code = .ok portfolio) :
    (s.allocate code).value Book.answer b = s.allotted portfolio b := by
  rw [value_allocate_eq]
  unfold allocateOnce
  rw [hcheck]
  show (s.tryClaim portfolio (s.tries.toNat - 1) 1 (cursorOf (b.rows portfolio))).value
    Book.answer b = _
  -- The tries that are left make no difference.
  cases s.tries.toNat - 1 with
  | zero => exact value_tryOnce _
  | succ retries => exact value_tryOnce _

/-- A claim at the cursor of a portfolio takes a sequence that the settings can write. -/
theorem write_of_claim (htidy : Tidy portfolio (b.rows portfolio))
    (hclaim : (cursorOf (b.rows portfolio)).claim s.capacity = some c) :
    ∃ r, s.layout.write (tripleOf portfolio c) = .ok r := by
  have hpos := Cursor.one_le_sequence_of_claim htidy.one_le_index_cursorOf hclaim
  have hle := Cursor.sequence_le_of_claim hclaim
  have hcapacity := s.toNat_capacity_pos
  exact s.write_eq_ok hpos (show c.sequence.toNat ≤ s.capacity.toNat by omega)

/-- Before the space is exhausted, an issue takes the claim at the cursor and writes it. -/
theorem issue_of_claim (hcheck : s.check code = .ok portfolio)
    (hclaim : (cursorOf (b.rows portfolio)).claim s.capacity = some c) {r : Reference}
    (hwrite : s.layout.write (tripleOf portfolio c) = .ok r) :
    (s.issue code).value Book.answer b = (.ok r, b.record portfolio c) := by
  unfold issue
  rw [Program.value_map, value_allocate hcheck]
  unfold allotted
  rw [hclaim]
  show ((s.layout.write (tripleOf portfolio c)).mapError _, _) = _
  rw [hwrite]
  rfl

/-- Once the space is exhausted, an issue says so and changes nothing. -/
theorem issue_of_exhausted (hcheck : s.check code = .ok portfolio)
    (hclaim : (cursorOf (b.rows portfolio)).claim s.capacity = none) :
    (s.issue code).value Book.answer b = (.error (.outOfSpace portfolio), b) := by
  unfold issue
  rw [Program.value_map, value_allocate hcheck]
  unfold allotted
  rw [hclaim]

/-- A book with one more claim at a cursor still has a history. -/
theorem hasHistory_record (hb : b.HasHistory)
    (hclaim : (cursorOf (b.rows portfolio)).claim s.capacity = some c) :
    (b.record portfolio c).HasHistory := by
  have hcapacity := s.toNat_capacity_lt
  have hbounded : (Call.claim portfolio (cursorOf (b.rows portfolio)) s.capacity).IsBounded := by
    show s.capacity.toNat < 2 ^ 32 - 1
    omega
  have hafter := hb.answer hbounded
  rw [Book.answer_claim_of_ok (plan_of_claim hclaim)] at hafter
  exact hafter

/-! ## Issues one after the other -/

/-- The state after so many issues. -/
def afterIssues (answer : (c : Call) → σ → Reply c × σ) (s : Settings) (code : Int) : Nat → σ → σ
  | 0, state => state
  | n + 1, state => ((s.issue code).run answer (afterIssues answer s code n state)).state

/-- One more issue. -/
theorem afterIssues_succ (answer : (c : Call) → σ → Reply c × σ) (s : Settings) (code : Int)
    (n : Nat) (state : σ) : afterIssues answer s code (n + 1) state =
      ((s.issue code).value answer (afterIssues answer s code n state)).2 :=
  Program.state_run _ _ _

/-- The place at which a portfolio stands in the book. -/
def placeIn (s : Settings) (portfolio : PortfolioCode) (b : Book) : Nat :=
  (cursorOf (b.rows portfolio)).place s.capacity

/-- Before the space is exhausted, an issue gives the triple in the place and moves on to the next
one. -/
theorem issue_of_placeIn_lt (hcheck : s.check code = .ok portfolio) (hb : b.HasHistory)
    (hplace : s.placeIn portfolio b < 26 * s.capacity.toNat) :
    ∃ c r, tripleOf portfolio c = .nth portfolio s.capacity (s.placeIn portfolio b) ∧
      s.layout.write (.nth portfolio s.capacity (s.placeIn portfolio b)) = .ok r ∧
      s.allotted portfolio b = (.ok (.ofClaim portfolio c 1), b.record portfolio c) ∧
      (s.issue code).value Book.answer b = (.ok r, b.record portfolio c) ∧
      (b.record portfolio c).HasHistory ∧
      s.placeIn portfolio (b.record portfolio c) = s.placeIn portfolio b + 1 := by
  have htidy := (hb portfolio).tidy
  have hindex := htidy.one_le_index_cursorOf
  have hcapacity := s.toNat_capacity_lt
  have hat := (Cursor.claim_of_place_lt hindex hplace).trans (Cursor.claim_nth hplace)
  have htriple : tripleOf portfolio
      (.take (Cursor.nth s.capacity (s.placeIn portfolio b)).letter
        (Cursor.nth s.capacity (s.placeIn portfolio b)).index s.capacity) =
      .nth portfolio s.capacity (s.placeIn portfolio b) := rfl
  obtain ⟨r, hwrite⟩ := write_of_claim htidy hat
  refine ⟨_, r, htriple, hwrite, ?_, issue_of_claim hcheck hat hwrite, hasHistory_record hb hat, ?_⟩
  · unfold allotted
    rw [hat]
    rfl
  · unfold placeIn
    rw [Book.rows_record_self, cursorOf_recorded htidy (takenAt_of_claim htidy.sorted hat)]
    exact Cursor.place_after hindex s.toNat_capacity_pos (by omega) hat

/-- Once every sequence is passed, an issue finds the space exhausted and changes nothing. -/
theorem issue_of_le_placeIn (hcheck : s.check code = .ok portfolio)
    (hplace : 26 * s.capacity.toNat ≤ s.placeIn portfolio b) :
    (s.issue code).value Book.answer b = (.error (.outOfSpace portfolio), b) :=
  issue_of_exhausted hcheck (Cursor.claim_eq_none s.toNat_capacity_pos hplace)

/-- As long as there are sequences, each issue moves on by one place. -/
theorem placeIn_afterIssues (hcheck : s.check code = .ok portfolio) (hb : b.HasHistory) {n : Nat}
    (hn : s.placeIn portfolio b + n ≤ 26 * s.capacity.toNat) :
    (afterIssues Book.answer s code n b).HasHistory ∧
      s.placeIn portfolio (afterIssues Book.answer s code n b) = s.placeIn portfolio b + n := by
  induction n with
  | zero => exact ⟨hb, rfl⟩
  | succ n ih =>
    obtain ⟨hhistory, hplace⟩ := ih (by omega)
    obtain ⟨c, r, -, -, -, hissue, hafter, hnext⟩ :=
      issue_of_placeIn_lt hcheck hhistory (by omega)
    rw [afterIssues_succ, hissue]
    refine ⟨hafter, ?_⟩
    rw [hnext, hplace]
    omega

/-- Once every sequence is passed, further issues leave the book as it is. -/
theorem afterIssues_of_le (hcheck : s.check code = .ok portfolio) {m : Nat}
    (hm : 26 * s.capacity.toNat ≤ s.placeIn portfolio (afterIssues Book.answer s code m b))
    {n : Nat} (hn : m ≤ n) :
    afterIssues Book.answer s code n b = afterIssues Book.answer s code m b := by
  induction n, hn using Nat.le_induction with
  | base => rfl
  | succ n hn ih => rw [afterIssues_succ, ih, issue_of_le_placeIn hcheck hm]

/-- On a store that serves the book, issues lead to the book after the issues. -/
theorem keeps_afterIssues {answer : (c : Call) → σ → Reply c × σ} {keeps : σ → Book → Prop}
    (h : Serves answer keeps) (s : Settings) (code : Int) {state : σ} (hstate : keeps state b)
    (hb : b.HasHistory) (n : Nat) :
    keeps (afterIssues answer s code n state) (afterIssues Book.answer s code n b) ∧
      (afterIssues Book.answer s code n b).HasHistory := by
  induction n with
  | zero => exact ⟨hstate, hb⟩
  | succ n ih =>
    obtain ⟨hkeeps, hhistory⟩ := ih
    rw [afterIssues_succ, afterIssues_succ]
    exact (h.value (s.asks_issue code) hkeeps hhistory).2

/-- From a state on, issues give what remains of a portfolio, and then find the space exhausted. -/
structure GivesWhatRemains (answer : (c : Call) → σ → Reply c × σ) (s : Settings) (code : Int)
    (portfolio : PortfolioCode) (state : σ) (active : Option Cursor) (ts : List Triple) : Prop where
  /-- The portfolio stands at the cursor, if it has issued anything. -/
  stands : (answer (.active portfolio) state).1 = .ok active
  /-- What remains are the triples that the capacity admits and that do not come before the
  cursor. -/
  remains : ∀ t, t ∈ ts ↔ t.portfolio = portfolio ∧ 1 ≤ t.sequence.toNat ∧
    t.sequence.toNat ≤ s.capacity.toNat ∧
    ¬ t.Before ⟨portfolio, (active.getD .start).letter, (active.getD .start).index⟩
  /-- They are listed in their order. -/
  ordered : ts.Pairwise Triple.Before
  /-- There are those of the letter in use from the index on, and all of the later letters. -/
  count : ts.length = (s.capacity.toNat + 1 - (active.getD .start).index.toNat) +
    (25 - (active.getD .start).letter.position.val) * s.capacity.toNat
  /-- In a portfolio that has issued nothing they come letter by letter from the first one on. -/
  fresh : active = none → ts.length = 26 * s.capacity.toNat ∧ ∀ i t, ts[i]? = some t →
    t.letter.position.val = i / s.capacity.toNat ∧ t.sequence.toNat = i % s.capacity.toNat + 1
  /-- The issues give them one after the other, each in its first try. -/
  issued : ∀ i t, ts[i]? = some t → ∃ allocation r, s.layout.write t = .ok r ∧
    ((s.allocate code).run answer (afterIssues answer s code i state)).result = .ok allocation ∧
    allocation.triple = t ∧ allocation.tries = 1 ∧
    ((s.issue code).run answer (afterIssues answer s code i state)).result = .ok r
  /-- Every later issue finds the space exhausted and leaves all buckets as they are. -/
  refused : ∀ i, ts.length ≤ i →
    ((s.issue code).run answer (afterIssues answer s code i state)).result =
      .error (.outOfSpace portfolio) ∧
    ∀ other, ∃ rows, (answer (.buckets other) (afterIssues answer s code i state)).1 = .ok rows ∧
      (answer (.buckets other) (afterIssues answer s code (i + 1) state)).1 = .ok rows

section Served

variable {answer : (c : Call) → σ → Reply c × σ} {keeps : σ → Book → Prop} {state : σ}

/-- As long as there are sequences, an issue gives the triple in the next place, in its first
try. -/
theorem issued_afterIssues (h : Serves answer keeps) (hcheck : s.check code = .ok portfolio)
    (hstate : keeps state b) (hb : b.HasHistory) {i : Nat}
    (hi : s.placeIn portfolio b + i < 26 * s.capacity.toNat) :
    ∃ allocation r, s.layout.write (.nth portfolio s.capacity (s.placeIn portfolio b + i)) = .ok r ∧
      ((s.allocate code).run answer (afterIssues answer s code i state)).result = .ok allocation ∧
      allocation.triple = .nth portfolio s.capacity (s.placeIn portfolio b + i) ∧
      allocation.tries = 1 ∧
      ((s.issue code).run answer (afterIssues answer s code i state)).result = .ok r := by
  obtain ⟨hkeeps, hhistory⟩ := keeps_afterIssues h s code hstate hb i
  obtain ⟨-, hplace⟩ := placeIn_afterIssues hcheck hb (Nat.le_of_lt hi)
  obtain ⟨c, r, htriple, hwrite, hallotted, hissue, -⟩ :=
    issue_of_placeIn_lt hcheck hhistory (by omega)
  rw [hplace] at htriple hwrite
  have hallocate := (h.value (s.asks_allocate code) hkeeps hhistory).1
  have hissued := (h.value (s.asks_issue code) hkeeps hhistory).1
  rw [value_allocate hcheck, hallotted] at hallocate
  rw [hissue] at hissued
  refine ⟨.ofClaim portfolio c 1, r, hwrite, ?_, htriple, rfl, ?_⟩
  · rw [Program.result_run, hallocate]
  · rw [Program.result_run, hissued]

/-- Once all that remained was issued, an issue finds the space exhausted and leaves all buckets as
they are. -/
theorem refused_afterIssues (h : Serves answer keeps) (hcheck : s.check code = .ok portfolio)
    (hstate : keeps state b) (hb : b.HasHistory) {i : Nat}
    (hi : (cursorOf (b.rows portfolio)).room s.capacity ≤ i) :
    ((s.issue code).run answer (afterIssues answer s code i state)).result =
        .error (.outOfSpace portfolio) ∧
      ∀ other, ∃ rows, (answer (.buckets other) (afterIssues answer s code i state)).1 = .ok rows ∧
        (answer (.buckets other) (afterIssues answer s code (i + 1) state)).1 = .ok rows := by
  have hroom : s.placeIn portfolio b + (cursorOf (b.rows portfolio)).room s.capacity =
      26 * s.capacity.toNat := Cursor.place_add_room (hb portfolio).tidy.one_le_index_cursorOf
  obtain ⟨hkeeps, hhistory⟩ := keeps_afterIssues h s code hstate hb i
  obtain ⟨hkeeps', hhistory'⟩ := keeps_afterIssues h s code hstate hb (i + 1)
  -- The book stays what it was when the last sequence had been issued.
  obtain ⟨-, hplace⟩ := placeIn_afterIssues hcheck hb (Nat.le_of_eq hroom)
  rw [hroom] at hplace
  have hfull := Nat.le_of_eq hplace.symm
  have hlast := afterIssues_of_le hcheck hfull hi
  have hlast' := afterIssues_of_le hcheck hfull (Nat.le_succ_of_le hi)
  have hissued := (h.value (s.asks_issue code) hkeeps hhistory).1
  rw [hlast, issue_of_le_placeIn hcheck hfull] at hissued
  refine ⟨?_, fun other => ⟨_, h.buckets hkeeps hhistory other, ?_⟩⟩
  · rw [Program.result_run, hissued]
  · rw [h.buckets hkeeps' hhistory' other, hlast, hlast']

/-- On a store that serves the book, issues give what remains. -/
theorem givesWhatRemains (h : Serves answer keeps) (hcheck : s.check code = .ok portfolio)
    (hstate : keeps state b) (hb : b.HasHistory) :
    GivesWhatRemains answer s code portfolio state (lastCursor (b.rows portfolio))
      (Triple.remaining portfolio s.capacity (cursorOf (b.rows portfolio))) := by
  have hindex := (hb portfolio).tidy.one_le_index_cursorOf
  have hroom : s.placeIn portfolio b + (cursorOf (b.rows portfolio)).room s.capacity =
      26 * s.capacity.toNat := Cursor.place_add_room hindex
  have hlength : (Triple.remaining portfolio s.capacity (cursorOf (b.rows portfolio))).length =
      (cursorOf (b.rows portfolio)).room s.capacity := Triple.length_remaining
  refine ⟨h.active hstate hb portfolio, fun t => Triple.mem_remaining hindex,
    Triple.pairwise_remaining hindex, hlength, fun hnone => ?_, fun i t ht => ?_, fun i hi => ?_⟩
  · have hstart : cursorOf (b.rows portfolio) = .start := by
      unfold cursorOf
      rw [hnone]
      rfl
    rw [hstart, Cursor.room_start] at hlength
    rw [hstart]
    refine ⟨hlength, fun i t ht => ?_⟩
    have hi := (List.getElem?_eq_some_iff.mp ht).1
    rw [Triple.getElem?_remaining_start (by omega)] at ht
    rw [← Option.some.inj ht]
    exact ⟨Cursor.position_nth (by omega), Cursor.toNat_index_nth (by omega)⟩
  · have hi := (List.getElem?_eq_some_iff.mp ht).1
    rw [Triple.getElem?_remaining (by omega)] at ht
    rw [← Option.some.inj ht]
    exact issued_afterIssues h hcheck hstate hb (by omega)
  · exact refused_afterIssues h hcheck hstate hb (by omega)

end Served

/-- Whatever was claimed before, under whatever capacities: on either store, issues one after the
other give exactly what remains under the capacity of the settings, in order and each in its first
try, and then find the space exhausted. -/
theorem issues_give_what_remains (folder : Option String) (clock : Nat → Timestamp)
    {earlier : List Call} (hearlier : ∀ c ∈ earlier, c.IsBounded) (s : Settings) {code : Int}
    {portfolio : PortfolioCode} (hcheck : s.check code = .ok portfolio) :
    (∃ active ts, GivesWhatRemains (LedgerStore.serve folder clock) s code portfolio
        (converse (LedgerStore.serve folder clock) earlier .empty).2 active ts) ∧
      ∃ active ts, GivesWhatRemains SharedDatabase.answer s code portfolio
        (converse SharedDatabase.answer earlier .fresh).2 active ts := by
  constructor
  · obtain ⟨b, hkeeps, hhistory, -⟩ := (LedgerStore.bookkeeping folder clock).reached hearlier
    exact ⟨_, _, givesWhatRemains (LedgerStore.bookkeeping folder clock).serves hcheck hkeeps
      hhistory⟩
  · obtain ⟨b, hkeeps, hhistory, -⟩ := SharedDatabase.bookkeeping.reached hearlier
    exact ⟨_, _, givesWhatRemains SharedDatabase.bookkeeping.serves hcheck hkeeps hhistory⟩

end Settings

/-- The layout with a number of digits, brought into the range from one to nine. -/
def Layout.ofDigits (digits : Nat) : Layout := ⟨max 1 (min digits 9), by omega, by omega⟩

namespace Settings

/-- Settings with one digit for a sequence. -/
def ofOneDigit (capacity : UInt32) (h : 1 ≤ capacity ∧ capacity ≤ 9) : Settings where
  registry := .standard
  layout := .ofDigits 1
  capacity := capacity
  tries := 1
  capacity_pos := h.1
  capacity_le := h.2
  tries_pos := by decide

/-- Two claims at capacity three leave the letter `A` one sequence short of full. -/
def twoOfThree : List Call := [.claim ⟨7⟩ .start 3, .claim ⟨7⟩ ⟨.first, 2⟩ 3]

/-- At capacity two nothing of `A` remains after that, and the letters from `B` on remain. -/
theorem issues_give_what_remains_two_of_three :
    ∃ ts, ts.length = 50 ∧ GivesWhatRemains SharedDatabase.answer (ofOneDigit 2 (by decide)) 7 ⟨7⟩
      (converse SharedDatabase.answer twoOfThree .fresh).2 (some ⟨.first, 3⟩) ts := by
  have hseven : (ofOneDigit 2 (by decide)).check 7 = .ok ⟨7⟩ := by decide
  have hbounded : ∀ c ∈ twoOfThree, c.IsBounded := by decide
  obtain ⟨active, ts, hgives⟩ :=
    (issues_give_what_remains none (fun _ => .epoch) hbounded _ hseven).2
  have hstands : (SharedDatabase.answer (.active ⟨7⟩)
      (converse SharedDatabase.answer twoOfThree .fresh).2).1 = .ok (some ⟨.first, 3⟩) := rfl
  obtain rfl : active = some ⟨.first, 3⟩ := Except.ok.inj (hgives.stands.symm.trans hstands)
  exact ⟨ts, hgives.count, hgives⟩

end Settings

end ReferenceMint
