import Mathlib.Data.List.Forall2
import ReferenceMint.Proofs.Permanence
import ReferenceMint.Proofs.Succession
import ReferenceMint.Proofs.Walking

/-!
# Series of issues

A series issues references one after the other, until it has as many as it should or an issue fails.
Its first issue decides how it goes on, whatever answers the calls
(`Settings.value_issueMany_succ`).

On the book a series takes the first of the triples that remain under the capacity, as many as it
should or as there are (`Settings.Takes`): these are written, they are what the buckets have issued
besides what they had issued before, and the others remain. It fails exactly if there are too few
(`Settings.value_issueMany`). So two series one after the other take what one series takes that is
as long as both (`Settings.Takes.trans`).
-/

namespace ReferenceMint

open Store

namespace Settings

section Answered

variable {σ : Type}

/-- References that were issued before come first, and make no other difference. -/
theorem value_issueFrom (answer : (c : Call) → σ → Reply c × σ) (s : Settings) (code : Int)
    (n : Nat) (issued : List Reference) (state : σ) :
    (s.issueFrom code n issued).value answer state =
      ((issued.reverse ++ ((s.issueMany code n).value answer state).1.1,
        ((s.issueMany code n).value answer state).1.2),
      ((s.issueMany code n).value answer state).2) := by
  unfold issueMany
  induction n generalizing issued state with
  | zero =>
    show ((issued.reverse, none), state) = ((issued.reverse ++ [], none), state)
    rw [List.append_nil]
  | succ n ih =>
    rw [issueFrom, issueFrom, Program.value_bind, Program.value_bind]
    generalize (s.issue code).value answer state = first
    obtain ⟨e | r, after⟩ := first
    · show ((issued.reverse, some e), after) = ((issued.reverse ++ [], some e), after)
      rw [List.append_nil]
    · show (s.issueFrom code n (r :: issued)).value answer after =
        ((issued.reverse ++ ((s.issueFrom code n [r]).value answer after).1.1,
          ((s.issueFrom code n [r]).value answer after).1.2),
        ((s.issueFrom code n [r]).value answer after).2)
      rw [ih, ih [r]]
      simp

/-- A series goes on after its first issue, unless this fails. -/
theorem value_issueMany_succ (answer : (c : Call) → σ → Reply c × σ) (s : Settings) (code : Int)
    (n : Nat) (state : σ) :
    (s.issueMany code (n + 1)).value answer state =
      match (s.issue code).value answer state with
      | (.ok r, after) =>
        ((r :: ((s.issueMany code n).value answer after).1.1,
          ((s.issueMany code n).value answer after).1.2),
        ((s.issueMany code n).value answer after).2)
      | (.error e, after) => (([], some e), after) := by
  show (s.issueFrom code (n + 1) []).value answer state = _
  rw [issueFrom, Program.value_bind]
  generalize (s.issue code).value answer state = first
  obtain ⟨e | r, after⟩ := first
  · rfl
  · show (s.issueFrom code n [r]).value answer after = _
    rw [value_issueFrom]
    rfl

end Answered

/-! ## On the book -/

/-- The triples that remain of a portfolio in the book under the capacity of the settings. -/
def remainingIn (s : Settings) (portfolio : PortfolioCode) (b : Book) : List Triple :=
  Triple.remaining portfolio s.capacity (cursorOf (b.rows portfolio))

/-- From a book the references are taken, and the other book is left. -/
structure Takes (s : Settings) (portfolio : PortfolioCode) (b : Book) (n : Nat)
    (refs : List Reference) (after : Book) : Prop where
  /-- The references are those of the first triples that remained. -/
  written : List.Forall₂ (fun t r => s.layout.write t = .ok r)
    ((s.remainingIn portfolio b).take n) refs
  /-- The others remain. -/
  remains : s.remainingIn portfolio after = (s.remainingIn portfolio b).drop n
  /-- The triples are issued, and besides them what was issued before. -/
  issued : ∀ letter sequence, Bucket.issued (after.rows portfolio) letter sequence = true ↔
    Bucket.issued (b.rows portfolio) letter sequence = true ∨
      ⟨portfolio, letter, sequence⟩ ∈ (s.remainingIn portfolio b).take n
  /-- Other portfolios have the buckets that they had. -/
  others : ∀ other, other ≠ portfolio → after.rows other = b.rows other
  /-- The book has a history. -/
  history : after.HasHistory

variable {s : Settings} {code : Int} {portfolio : PortfolioCode} {b middle after : Book} {m n : Nat}
  {refs more : List Reference} {c : Claim}

/-- What remains has not been issued. -/
theorem not_issued_of_mem_remainingIn (hb : b.HasHistory) {t : Triple}
    (ht : t ∈ s.remainingIn portfolio b) :
    ¬ Bucket.issued (b.rows portfolio) t.letter t.sequence = true := by
  have htidy := (hb portfolio).tidy
  obtain ⟨-, -, -, hbefore⟩ := (Triple.mem_remaining htidy.one_le_index_cursorOf).mp ht
  intro hissued
  exact hbefore (Triple.before_iff.mpr (htidy.rank_lt_of_issued hissued))

/-- There are as many references as were to be taken, or as there could be. -/
theorem Takes.length_refs (h : s.Takes portfolio b n refs after) :
    refs.length = min n (s.remainingIn portfolio b).length := by
  rw [← h.written.length_eq, List.length_take]

/-- Each reference is that of a triple. -/
theorem Takes.exists_write (h : s.Takes portfolio b n refs after) {r : Reference} (hr : r ∈ refs) :
    ∃ t, s.layout.write t = .ok r := by
  obtain ⟨hwritten, -⟩ := h
  generalize (s.remainingIn portfolio b).take n = taken at hwritten
  induction hwritten with
  | nil => exact absurd hr List.not_mem_nil
  | cons hwrite _ ih =>
    rcases List.mem_cons.mp hr with rfl | hr
    · exact ⟨_, hwrite⟩
    · exact ih hr

/-- Only these references can be taken. -/
theorem Takes.refs_unique (h : s.Takes portfolio b n refs after) {other : List Reference}
    {later : Book} (hother : s.Takes portfolio b n other later) : refs = other :=
  List.right_unique_forall₂' (fun _ _ _ hfirst hsecond => Except.ok.inj (hfirst.symm.trans hsecond))
    h.written hother.written

/-- The triples that are taken are those that are issued afterwards and were not before. -/
theorem Takes.mem_take_iff (h : s.Takes portfolio b n refs after) (hb : b.HasHistory) {t : Triple} :
    t ∈ (s.remainingIn portfolio b).take n ↔
      Bucket.issued (after.rows t.portfolio) t.letter t.sequence = true ∧
      ¬ Bucket.issued (b.rows t.portfolio) t.letter t.sequence = true := by
  have hindex := (hb portfolio).tidy.one_le_index_cursorOf
  constructor
  · intro ht
    have hremains := List.mem_of_mem_take ht
    obtain ⟨rfl, -⟩ := (Triple.mem_remaining hindex).mp hremains
    exact ⟨(h.issued t.letter t.sequence).mpr (.inr ht), not_issued_of_mem_remainingIn hb hremains⟩
  · rintro ⟨hafter, hbefore⟩
    by_cases hother : t.portfolio = portfolio
    · subst hother
      exact ((h.issued t.letter t.sequence).mp hafter).resolve_left hbefore
    · rw [h.others t.portfolio hother] at hafter
      exact absurd hafter hbefore

/-- What was issued before is still issued. -/
theorem Takes.issued_of_issued (h : s.Takes portfolio b n refs after) {t : Triple}
    (ht : Bucket.issued (b.rows t.portfolio) t.letter t.sequence = true) :
    Bucket.issued (after.rows t.portfolio) t.letter t.sequence = true := by
  by_cases hother : t.portfolio = portfolio
  · subst hother
    exact (h.issued t.letter t.sequence).mpr (.inl ht)
  · rwa [h.others t.portfolio hother]

/-- The failure of a series that has fewer references than it should. -/
def shortfall (portfolio : PortfolioCode) (n : Nat) (refs : List Reference) :
    Option AllocationError :=
  if refs.length < n then some (.outOfSpace portfolio) else none

/-- A series fails exactly if it has fewer references than it should. -/
theorem isSome_shortfall : (shortfall portfolio n refs).isSome = true ↔ refs.length < n := by
  unfold shortfall
  split_ifs with hfew <;> simp [hfew]

/-- No reference is taken. -/
theorem Takes.none (hb : b.HasHistory) : s.Takes portfolio b 0 [] b where
  written := .nil
  remains := rfl
  issued letter sequence := by simp
  others _ _ := rfl
  history := hb

/-- References that are taken one after the other are taken. -/
theorem Takes.trans (h : s.Takes portfolio b m refs middle)
    (hmore : s.Takes portfolio middle n more after) :
    s.Takes portfolio b (m + n) (refs ++ more) after where
  written := by
    have hwritten := hmore.written
    rw [h.remains] at hwritten
    rw [List.take_add]
    exact List.rel_append h.written hwritten
  remains := by rw [hmore.remains, h.remains, List.drop_drop]
  issued letter sequence := by
    rw [hmore.issued, h.issued, h.remains, List.take_add, List.mem_append, or_assoc]
  others other hother := (hmore.others other hother).trans (h.others other hother)
  history := hmore.history

/-- Where nothing remains, any number of references may have been asked for. -/
theorem Takes.of_nil (hb : b.HasHistory) (hnil : s.remainingIn portfolio b = []) (n : Nat) :
    s.Takes portfolio b n [] b where
  written := by
    rw [hnil, List.take_nil]
    exact .nil
  remains := by rw [hnil, List.drop_nil]
  issued letter sequence := by simp [hnil]
  others _ _ := rfl
  history := hb

/-- The claim at the cursor takes the first triple that remains. -/
theorem remainingIn_of_claim (hb : b.HasHistory)
    (hclaim : (cursorOf (b.rows portfolio)).claim s.capacity = some c) :
    s.remainingIn portfolio b =
      tripleOf portfolio c :: s.remainingIn portfolio (b.record portfolio c) := by
  have htidy := (hb portfolio).tidy
  have hcapacity := s.toNat_capacity_lt
  unfold remainingIn
  rw [Book.rows_record_self, cursorOf_recorded htidy (takenAt_of_claim htidy.sorted hclaim)]
  exact Cursor.remaining_of_claim portfolio htidy.one_le_index_cursorOf s.toNat_capacity_pos
    (by omega) hclaim

/-- The claim at the cursor takes a reference. -/
theorem Takes.one (hb : b.HasHistory)
    (hclaim : (cursorOf (b.rows portfolio)).claim s.capacity = some c) {r : Reference}
    (hwrite : s.layout.write (tripleOf portfolio c) = .ok r) :
    s.Takes portfolio b 1 [r] (b.record portfolio c) where
  written := by
    rw [remainingIn_of_claim hb hclaim]
    exact .cons hwrite .nil
  remains := by
    rw [remainingIn_of_claim hb hclaim]
    rfl
  issued letter sequence := by
    have htidy := (hb portfolio).tidy
    have hsequence := Cursor.sequence_le_of_claim hclaim
    have hcapacity := s.toNat_capacity_lt
    have hpos := s.toNat_capacity_pos
    have hfirst : (⟨portfolio, letter, sequence⟩ : Triple) ∈ [tripleOf portfolio c] ↔
        c.letter = letter ∧ c.sequence = sequence := by
      simp [tripleOf, eq_comm]
    rw [Book.rows_record_self, remainingIn_of_claim hb hclaim,
      issued_recorded htidy (takenAt_of_claim htidy.sorted hclaim) (by omega), List.take_succ_cons,
      List.take_zero, hfirst]
  others other hother := Book.rows_record_ne _ _ hother
  history := hasHistory_record hb hclaim

/-- On the book a series takes what remains, as much of it as it should, and fails if there is too
little. -/
theorem value_issueMany (hcheck : s.check code = .ok portfolio) (hb : b.HasHistory) (n : Nat) :
    ∃ refs after, s.Takes portfolio b n refs after ∧
      (s.issueMany code n).value Book.answer b = ((refs, shortfall portfolio n refs), after) := by
  induction n generalizing b with
  | zero => exact ⟨[], b, .none hb, rfl⟩
  | succ n ih =>
    rw [value_issueMany_succ]
    cases hclaim : (cursorOf (b.rows portfolio)).claim s.capacity with
    | none =>
      -- The first issue fails, and nothing remains that any further one could have taken.
      have hindex := (hb portfolio).tidy.one_le_index_cursorOf
      have hnil : s.remainingIn portfolio b = [] :=
        Cursor.remaining_of_none portfolio hindex s.toNat_capacity_pos hclaim
      rw [issue_of_exhausted hcheck hclaim]
      exact ⟨[], b, .of_nil hb hnil _, rfl⟩
    | some c =>
      obtain ⟨r, hwrite⟩ := write_of_claim (hb portfolio).tidy hclaim
      obtain ⟨refs, after, htakes, hvalue⟩ := ih (hasHistory_record hb hclaim)
      have hone := Takes.one hb hclaim hwrite
      -- The other issues take what they take from the book after the first one.
      rw [issue_of_claim hcheck hclaim hwrite]
      refine ⟨r :: refs, after, ?_, ?_⟩
      · have hall := hone.trans htakes
        rwa [Nat.add_comm 1 n] at hall
      · simp only [hvalue, shortfall, List.length_cons, Nat.add_lt_add_iff_right]

end Settings

end ReferenceMint
