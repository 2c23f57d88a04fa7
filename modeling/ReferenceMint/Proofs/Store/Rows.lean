import Mathlib.Data.List.Basic
import ReferenceMint.Proofs.Cursor
import ReferenceMint.Store.Ledger

/-!
# What a claim does to the buckets of a portfolio

The buckets of a portfolio are tidy: ordered by letter, of this portfolio, and with indexes from one
on. A claim at the cursor that tidy buckets hold concerns their end only (`TakenAt`): it raises the
last bucket by one or opens one behind it, and it may open another one behind that. So the
buckets afterwards are those before the claimed letter and the written ones (`recorded_eq`), they
are tidy again, they hold the cursor after the claim, and they have issued what was issued before
and the claimed sequence (`issued_recorded`).

Ledgers that others wrote may have buckets that are not tidy. Of these the active bucket is followed
(`active?_ordered`, `active?_raise`).
-/

namespace ReferenceMint.Store

/-- The buckets with a claim written into them. -/
def recorded (portfolio : PortfolioCode) (rows : List Bucket) (c : Claim) : List Bucket :=
  Ledger.ordered (c.writes.foldl (fun rows (letter, index) =>
    Ledger.raise portfolio rows letter index) rows)

/-- Buckets of one portfolio, ordered by letter, with indexes from one on. -/
structure Tidy (portfolio : PortfolioCode) (rows : List Bucket) : Prop where
  /-- Each letter is before the next. -/
  sorted : rows.Pairwise fun a b => a.letter < b.letter
  /-- The buckets are the portfolio's. -/
  owned : ∀ b ∈ rows, b.portfolio = portfolio
  /-- No index is zero. -/
  started : ∀ b ∈ rows, 1 ≤ b.index.toNat

/-- The cursor that the last bucket holds, if there is a bucket. -/
def lastCursor (rows : List Bucket) : Option Cursor :=
  rows.getLast?.map fun b => ⟨b.letter, b.index⟩

/-- The cursor that the last bucket holds, or that of a portfolio without buckets. -/
def cursorOf (rows : List Bucket) : Cursor := (lastCursor rows).getD .start

/-- The last bucket holds the cursor. -/
theorem lastCursor_concat (front : List Bucket) (last : Bucket) :
    lastCursor (front ++ [last]) = some ⟨last.letter, last.index⟩ := by
  simp [lastCursor]

/-- The cursor of buckets is at the last one. -/
theorem cursorOf_concat (front : List Bucket) (last : Bucket) :
    cursorOf (front ++ [last]) = ⟨last.letter, last.index⟩ := by
  rw [cursorOf, lastCursor_concat, Option.getD_some]

/-- A claim is taken at the end of buckets. -/
structure TakenAt (rows : List Bucket) (c : Claim) : Prop where
  /-- It is taken from the last bucket at its index, or as the first of a letter behind all. -/
  place : (∃ front last, rows = front ++ [last] ∧ last.letter = c.letter ∧
      last.index = c.sequence) ∨
    ((∀ b ∈ rows, b.letter < c.letter) ∧ c.sequence = 1)
  /-- What it opens is a later letter. -/
  opened : ∀ next, c.opened = some next → c.letter < next

/-! ## The cursor of tidy buckets -/

/-- No bucket is tidy. -/
theorem tidy_nil (portfolio : PortfolioCode) : Tidy portfolio [] :=
  ⟨List.Pairwise.nil, by simp, by simp⟩

/-- In ordered buckets the last one is the active one. -/
theorem active?_eq_getLast? {rows : List Bucket}
    (h : rows.Pairwise fun a b => a.letter < b.letter) : Bucket.active? rows = rows.getLast? := by
  induction rows with
  | nil => rfl
  | cons b rows ih =>
    rw [List.pairwise_cons] at h
    -- Whatever comes later is preferred to `b`, as its letter is higher.
    unfold Bucket.active?
    rw [ih h.2]
    cases hlast : rows.getLast? with
    | none =>
      rw [List.getLast?_eq_none_iff] at hlast
      subst hlast
      rfl
    | some best =>
      have hlt := Letter.lt_iff.mp (h.1 best (List.mem_of_getLast? hlast))
      have hle : b.letter ≤ best.letter := Letter.le_iff.mpr (by omega)
      simp only [hle, if_true]
      rw [List.getLast?_cons, hlast]
      rfl

/-- A tidy bucket holds a cursor. -/
theorem Tidy.cursor {portfolio : PortfolioCode} {rows : List Bucket} (h : Tidy portfolio rows)
    {b : Bucket} (hb : b ∈ rows) : b.cursor = .ok ⟨b.letter, b.index⟩ := by
  have hpos := h.started b hb
  have hne : b.index ≠ 0 := by
    intro hzero
    rw [hzero] at hpos
    exact absurd hpos (by decide)
  exact if_neg hne

/-- Tidy buckets hold a cursor if there is one at all. -/
theorem Tidy.activeCursor {portfolio : PortfolioCode} {rows : List Bucket}
    (h : Tidy portfolio rows) : Bucket.activeCursor rows = .ok (lastCursor rows) := by
  unfold Bucket.activeCursor lastCursor
  rw [active?_eq_getLast? h.sorted]
  cases hlast : rows.getLast? with
  | none => rfl
  | some b =>
    simp only [h.cursor (List.mem_of_getLast? hlast)]
    rfl

/-- Of ordered buckets all others come before the last one. -/
theorem lt_last_of_sorted {front : List Bucket} {last : Bucket}
    (h : (front ++ [last]).Pairwise fun a b => a.letter < b.letter) :
    ∀ b ∈ front, b.letter < last.letter :=
  fun b hb => (List.pairwise_append.mp h).2.2 b hb last (by simp)

/-- A claim at the cursor of ordered buckets is taken at their end. -/
theorem takenAt_of_claim {rows : List Bucket} (h : rows.Pairwise fun a b => a.letter < b.letter)
    {capacity : UInt32} {c : Claim} (hc : (cursorOf rows).claim capacity = some c) :
    TakenAt rows c := by
  refine ⟨?_, Cursor.lt_of_claim_opened hc⟩
  rcases List.eq_nil_or_concat' rows with rfl | ⟨front, last, rfl⟩
  · -- A portfolio without buckets starts with the first sequence, whatever the capacity.
    right
    refine ⟨by simp, ?_⟩
    rcases Cursor.claim_cases hc with ⟨-, rfl⟩ | ⟨-, next, -, rfl⟩
    · rfl
    · rfl
  · rw [cursorOf_concat] at hc
    rcases Cursor.claim_cases hc with ⟨-, rfl⟩ | ⟨-, next, hnext, rfl⟩
    · exact .inl ⟨front, last, rfl, rfl, rfl⟩
    · -- A claim that moves on takes the letter behind the last one.
      right
      refine ⟨?_, rfl⟩
      have hlater : last.letter < next := Letter.lt_of_next? hnext
      intro b hb
      rcases List.mem_append.mp hb with hb | hb
      · exact Letter.lt_trans (lt_last_of_sorted h b hb) hlater
      · obtain rfl : b = last := by simpa using hb
        exact hlater

/-! ## Planned claims -/

/-- What a plan gives is the claim at the cursor, and the cursor is the expected one. -/
theorem plan_eq_ok {current expected : Cursor} {capacity : UInt32} {c : Claim}
    (h : plan current expected capacity = .ok c) :
    current = expected ∧ current.claim capacity = some c := by
  unfold plan at h
  split_ifs at h with hcurrent
  refine ⟨hcurrent, ?_⟩
  cases hclaim : current.claim capacity with
  | none => simp [hclaim] at h
  | some other =>
    simp only [hclaim] at h
    rw [Except.ok.inj h]

/-- A claim at the expected cursor is planned. -/
theorem plan_of_claim {cursor : Cursor} {capacity : UInt32} {c : Claim}
    (h : cursor.claim capacity = some c) : plan cursor cursor capacity = .ok c := by
  unfold plan
  rw [if_pos rfl, h]

/-- A planned claim has a sequence from one up to the capacity. -/
theorem sequence_bounds_of_plan {current expected : Cursor} {capacity : UInt32} {c : Claim}
    (hcurrent : 1 ≤ current.index.toNat) (h : plan current expected capacity = .ok c) :
    1 ≤ c.sequence.toNat ∧ c.sequence.toNat ≤ max capacity.toNat 1 := by
  have hclaim := (plan_eq_ok h).2
  exact ⟨Cursor.one_le_sequence_of_claim hcurrent hclaim, Cursor.sequence_le_of_claim hclaim⟩

/-- What the plan gives in place of a claim is no claim. -/
theorem isClaimed_of_plan {current expected : Cursor} {capacity : UInt32} {outcome : ClaimReply}
    (h : plan current expected capacity = .error outcome) : outcome.isClaimed = false := by
  unfold plan at h
  split_ifs at h with hcurrent
  · cases hclaim : current.claim capacity with
    | none =>
      simp only [hclaim] at h
      rw [← Except.error.inj h]
      rfl
    | some other => simp [hclaim] at h
  · rw [← Except.error.inj h]
    rfl

/-! ## The buckets after a claim -/

/-- Raising the index of a letter that has no bucket adds a bucket at the end. -/
theorem raise_of_forall_ne {portfolio : PortfolioCode} {rows : List Bucket} {letter : Letter}
    (index : UInt32) (h : ∀ b ∈ rows, b.letter ≠ letter) :
    Ledger.raise portfolio rows letter index = rows ++ [⟨portfolio, letter, index⟩] := by
  induction rows with
  | nil => rfl
  | cons b rows ih =>
    unfold Ledger.raise
    rw [if_neg (h b (by simp)), ih fun other hother => h other (by simp [hother])]
    rfl

/-- Raising the index of the last bucket leaves the others alone. -/
theorem raise_append_singleton {portfolio : PortfolioCode} {front : List Bucket} {last : Bucket}
    (index : UInt32) (h : ∀ b ∈ front, b.letter ≠ last.letter) :
    Ledger.raise portfolio (front ++ [last]) last.letter index =
      front ++ [{ last with index := max last.index index }] := by
  induction front with
  | nil => simp [Ledger.raise]
  | cons b front ih =>
    rw [List.cons_append]
    unfold Ledger.raise
    rw [if_neg (h b (by simp)), ih fun other hother => h other (by simp [hother])]
    rfl

/-- Ordered buckets stay as they are when they are put in order. -/
theorem ordered_eq_self {rows : List Bucket} (h : rows.Pairwise fun a b => a.letter < b.letter) :
    Ledger.ordered rows = rows := by
  induction rows with
  | nil => rfl
  | cons b rows ih =>
    rw [List.pairwise_cons] at h
    have hrest : Ledger.ordered rows = rows := ih h.2
    show Ledger.place b (Ledger.ordered rows) = b :: rows
    rw [hrest]
    cases rows with
    | nil => rfl
    | cons other rows =>
      have hlt := Letter.lt_iff.mp (h.1 other (by simp))
      unfold Ledger.place
      rw [if_pos (Letter.le_iff.mpr (by omega))]

/-- The buckets that a claim writes. -/
def writtenRows (portfolio : PortfolioCode) (c : Claim) : List Bucket :=
  c.writes.map fun (letter, index) => ⟨portfolio, letter, index⟩

/-- What a claim writes: the bucket of the claimed letter, and the one that it opens. -/
theorem writtenRows_eq (portfolio : PortfolioCode) (c : Claim) :
    writtenRows portfolio c = ⟨portfolio, c.letter, successor c.sequence⟩ ::
      (c.opened.map fun next => (⟨portfolio, next, 1⟩ : Bucket)).toList := by
  unfold writtenRows Claim.writes
  cases c.opened <;> rfl

/-- The buckets before a letter and those that a claim of the letter writes are ordered. -/
theorem sorted_append_writtenRows {portfolio : PortfolioCode} {front : List Bucket} {c : Claim}
    (hfront : front.Pairwise fun a b => a.letter < b.letter)
    (hbefore : ∀ b ∈ front, b.letter < c.letter)
    (hopened : ∀ next, c.opened = some next → c.letter < next) :
    (front ++ writtenRows portfolio c).Pairwise fun a b => a.letter < b.letter := by
  rw [writtenRows_eq]
  cases hnext : c.opened with
  | none =>
    rw [List.pairwise_append]
    refine ⟨hfront, by simp, fun a ha b hb => ?_⟩
    obtain rfl : b = ⟨portfolio, c.letter, successor c.sequence⟩ := by simpa using hb
    exact hbefore a ha
  | some next =>
    have hlt := hopened next hnext
    rw [List.pairwise_append]
    refine ⟨hfront, by simpa using hlt, fun a ha b hb => ?_⟩
    have hb : b = ⟨portfolio, c.letter, successor c.sequence⟩ ∨ b = ⟨portfolio, next, 1⟩ := by
      simpa using hb
    rcases hb with rfl | rfl
    · exact hbefore a ha
    · exact Letter.lt_trans (hbefore a ha) hlt

/-- Of two numbers the larger one, if it is known. -/
theorem max_eq_right {m n : UInt32} (h : m.toNat ≤ n.toNat) : max m n = n := by
  apply UInt32.toNat_inj.mp
  rw [toNat_max]
  omega

/-- The bucket that a claim opens comes behind those that were there. -/
theorem foldl_raise_opened {portfolio : PortfolioCode} {front : List Bucket} {c : Claim}
    (hbefore : ∀ b ∈ front, b.letter < c.letter)
    (hopened : ∀ next, c.opened = some next → c.letter < next) :
    (c.opened.map fun next => (next, (1 : UInt32))).toList.foldl
        (fun rows (letter, index) => Ledger.raise portfolio rows letter index)
        (front ++ [⟨portfolio, c.letter, successor c.sequence⟩]) =
      front ++ writtenRows portfolio c := by
  rw [writtenRows_eq]
  cases hnext : c.opened with
  | none => rfl
  | some next =>
    have hlt := hopened next hnext
    have hne : ∀ b ∈ front ++ [(⟨portfolio, c.letter, successor c.sequence⟩ : Bucket)],
        b.letter ≠ next := by
      intro b hb
      rcases List.mem_append.mp hb with hb | hb
      · exact Letter.ne_of_lt (Letter.lt_trans (hbefore b hb) hlt)
      · obtain rfl : b = ⟨portfolio, c.letter, successor c.sequence⟩ := by simpa using hb
        exact Letter.ne_of_lt hlt
    show Ledger.raise portfolio _ next 1 = _
    rw [raise_of_forall_ne 1 hne, List.append_assoc]
    rfl

/-- The buckets before the letter of the last one are all the others. -/
theorem filter_lt_last {front : List Bucket} {last : Bucket}
    (h : (front ++ [last]).Pairwise fun a b => a.letter < b.letter) :
    (front ++ [last]).filter (fun b => b.letter < last.letter) = front := by
  have hfront := lt_last_of_sorted h
  have hself : ¬ last.letter < last.letter := fun hlt => Letter.ne_of_lt hlt rfl
  rw [List.filter_append, List.filter_eq_self.mpr (by simpa using hfront)]
  simp [hself]

/-- After a claim there are the buckets before the claimed letter and those that it writes. -/
theorem recorded_eq {portfolio : PortfolioCode} {rows : List Bucket} {c : Claim}
    (h : Tidy portfolio rows) (htaken : TakenAt rows c) :
    recorded portfolio rows c =
      (rows.filter fun b => b.letter < c.letter) ++ writtenRows portfolio c := by
  have hfold : recorded portfolio rows c = Ledger.ordered
      ((c.opened.map fun next => (next, (1 : UInt32))).toList.foldl
        (fun rows (letter, index) => Ledger.raise portfolio rows letter index)
        (Ledger.raise portfolio rows c.letter (successor c.sequence))) := rfl
  have hsorted : (rows.filter fun b => b.letter < c.letter).Pairwise
      fun a b => a.letter < b.letter := h.sorted.filter _
  have hbefore : ∀ b ∈ rows.filter (fun b => b.letter < c.letter), b.letter < c.letter := by
    intro b hb
    simpa using (List.mem_filter.mp hb).2
  -- Either way the bucket of the claimed letter comes to stand behind those before the letter.
  have hraise : Ledger.raise portfolio rows c.letter (successor c.sequence) =
      (rows.filter fun b => b.letter < c.letter) ++
        [⟨portfolio, c.letter, successor c.sequence⟩] := by
    rcases htaken.place with ⟨front, last, rfl, hletter, hindex⟩ | ⟨hlt, -⟩
    · have hne : ∀ b ∈ front, b.letter ≠ last.letter := fun b hb =>
        Letter.ne_of_lt (lt_last_of_sorted h.sorted b hb)
      have hmax : max last.index (successor c.sequence) = successor c.sequence :=
        max_eq_right (by rw [hindex]; exact le_toNat_successor _)
      rw [← hletter, raise_append_singleton _ hne, hmax, filter_lt_last h.sorted]
      -- The raised bucket is still the portfolio's.
      have howned := h.owned last (by simp)
      rw [← howned]
    · have hne : ∀ b ∈ rows, b.letter ≠ c.letter := fun b hb => Letter.ne_of_lt (hlt b hb)
      rw [raise_of_forall_ne _ hne, List.filter_eq_self.mpr (by simpa using hlt)]
  rw [hfold, hraise, foldl_raise_opened hbefore htaken.opened]
  exact ordered_eq_self (sorted_append_writtenRows hsorted hbefore htaken.opened)

/-- Buckets are tidy after a claim too. -/
theorem Tidy.recorded {portfolio : PortfolioCode} {rows : List Bucket} {c : Claim}
    (h : Tidy portfolio rows) (htaken : TakenAt rows c) :
    Tidy portfolio (recorded portfolio rows c) := by
  rw [recorded_eq h htaken]
  have hbefore : ∀ b ∈ rows.filter (fun b => b.letter < c.letter), b.letter < c.letter := by
    intro b hb
    simpa using (List.mem_filter.mp hb).2
  have hwritten : ∀ b ∈ writtenRows portfolio c, b.portfolio = portfolio ∧ 1 ≤ b.index.toNat := by
    rw [writtenRows_eq]
    intro b hb
    rcases List.mem_cons.mp hb with rfl | hb
    · exact ⟨rfl, one_le_toNat_successor _⟩
    · cases hnext : c.opened with
      | none => simp [hnext] at hb
      | some next =>
        obtain rfl : b = ⟨portfolio, next, 1⟩ := by simpa [hnext] using hb
        exact ⟨rfl, Nat.le_refl 1⟩
  refine ⟨sorted_append_writtenRows (h.sorted.filter _) hbefore htaken.opened, ?_, ?_⟩
  · intro b hb
    rcases List.mem_append.mp hb with hb | hb
    · exact h.owned b (List.mem_of_mem_filter hb)
    · exact (hwritten b hb).1
  · intro b hb
    rcases List.mem_append.mp hb with hb | hb
    · exact h.started b (List.mem_of_mem_filter hb)
    · exact (hwritten b hb).2

/-- After a claim the last bucket holds the cursor after the claim. -/
theorem lastCursor_recorded {portfolio : PortfolioCode} {rows : List Bucket} {c : Claim}
    (h : Tidy portfolio rows) (htaken : TakenAt rows c) :
    lastCursor (recorded portfolio rows c) = some c.after := by
  rw [recorded_eq h htaken, writtenRows_eq]
  unfold lastCursor Claim.after
  cases c.opened <;> simp

/-- After a claim the buckets hold the cursor after the claim. -/
theorem cursorOf_recorded {portfolio : PortfolioCode} {rows : List Bucket} {c : Claim}
    (h : Tidy portfolio rows) (htaken : TakenAt rows c) :
    cursorOf (recorded portfolio rows c) = c.after := by
  unfold cursorOf
  rw [lastCursor_recorded h htaken]
  rfl

/-- A bucket after a claim was there before the claimed letter, or is written by the claim. -/
theorem mem_recorded {portfolio : PortfolioCode} {rows : List Bucket} {c : Claim}
    (h : Tidy portfolio rows) (htaken : TakenAt rows c) (b : Bucket) :
    b ∈ recorded portfolio rows c ↔ (b ∈ rows ∧ b.letter < c.letter) ∨
      b = ⟨portfolio, c.letter, successor c.sequence⟩ ∨
      ∃ next, c.opened = some next ∧ b = ⟨portfolio, next, 1⟩ := by
  rw [recorded_eq h htaken, writtenRows_eq, List.mem_append, List.mem_filter,
    List.mem_cons]
  cases c.opened <;> simp

/-- A bucket that is not before the claimed letter is the one that the claim is taken from. -/
theorem TakenAt.eq_of_not_lt {rows : List Bucket} {c : Claim} (htaken : TakenAt rows c)
    (hsorted : rows.Pairwise fun a b => a.letter < b.letter) {b : Bucket} (hb : b ∈ rows)
    (hnot : ¬ b.letter < c.letter) : b.letter = c.letter ∧ b.index = c.sequence := by
  rcases htaken.place with ⟨front, last, rfl, hlast, hindex⟩ | ⟨hall, -⟩
  · rcases List.mem_append.mp hb with hfront | hb
    · have hlt := lt_last_of_sorted hsorted b hfront
      rw [hlast] at hlt
      exact absurd hlt hnot
    · obtain rfl : b = last := by simpa using hb
      exact ⟨hlast, hindex⟩
  · exact absurd (hall b hb) hnot

/-- A claim takes no bucket away and lowers no index. -/
theorem exists_le_of_recorded {portfolio : PortfolioCode} {rows : List Bucket} {c : Claim}
    (h : Tidy portfolio rows) (htaken : TakenAt rows c) {b : Bucket} (hb : b ∈ rows) :
    ∃ later ∈ recorded portfolio rows c, later.portfolio = b.portfolio ∧ later.letter = b.letter ∧
      b.index.toNat ≤ later.index.toNat := by
  by_cases hbefore : b.letter < c.letter
  · exact ⟨b, (mem_recorded h htaken b).mpr (.inl ⟨hb, hbefore⟩), rfl, rfl, Nat.le_refl _⟩
  · obtain ⟨hletter, hindex⟩ := htaken.eq_of_not_lt h.sorted hb hbefore
    refine ⟨_, (mem_recorded h htaken _).mpr (.inr (.inl rfl)), (h.owned b hb).symm,
      hletter.symm, ?_⟩
    rw [hindex]
    exact le_toNat_successor _

/-! ## What buckets have issued -/

/-- A sequence is issued if a bucket of its letter is past it. -/
theorem issued_iff {rows : List Bucket} {letter : Letter} {sequence : UInt32} :
    Bucket.issued rows letter sequence = true ↔ ∃ b ∈ rows, b.letter = letter ∧
      1 ≤ sequence.toNat ∧ sequence.toNat < b.index.toNat := by
  unfold Bucket.issued Bucket.covers
  simp [UInt32.le_iff_toNat_le, UInt32.lt_iff_toNat_lt]

/-- A claim at the cursor of tidy buckets takes numbers from one on. -/
theorem TakenAt.one_le_sequence {portfolio : PortfolioCode} {rows : List Bucket} {c : Claim}
    (h : Tidy portfolio rows) (htaken : TakenAt rows c) : 1 ≤ c.sequence.toNat := by
  rcases htaken.place with ⟨front, last, rfl, -, hindex⟩ | ⟨-, hsequence⟩
  · rw [← hindex]
    exact h.started last (by simp)
  · rw [hsequence]
    exact Nat.le_refl 1

/-- After a claim the buckets have issued what they had issued before, and the claimed sequence. The
highest number of all cannot be recorded as issued. -/
theorem issued_recorded {portfolio : PortfolioCode} {rows : List Bucket} {c : Claim}
    (h : Tidy portfolio rows) (htaken : TakenAt rows c)
    (hbound : c.sequence.toNat < 2 ^ 32 - 1) {letter : Letter} {sequence : UInt32} :
    Bucket.issued (recorded portfolio rows c) letter sequence = true ↔
      Bucket.issued rows letter sequence = true ∨ (c.letter = letter ∧ c.sequence = sequence) := by
  have hone : (1 : UInt32).toNat = 1 := rfl
  have hnext := toNat_successor hbound
  have hpos := htaken.one_le_sequence h
  rw [issued_iff, issued_iff]
  constructor
  · rintro ⟨b, hb, hletter, hge, hlt⟩
    rcases (mem_recorded h htaken b).mp hb with ⟨hb, -⟩ | rfl | ⟨next, -, rfl⟩
    · exact .inl ⟨b, hb, hletter, hge, hlt⟩
    · simp only at hletter hlt
      by_cases heq : sequence = c.sequence
      · exact .inr ⟨hletter, heq.symm⟩
      · -- A lower number of the letter was issued before, by the last bucket.
        have hne : sequence.toNat ≠ c.sequence.toNat := fun hnat =>
          heq (UInt32.toNat_inj.mp hnat)
        rcases htaken.place with ⟨front, last, rfl, hlast, hindex⟩ | ⟨-, hsequence⟩
        · refine .inl ⟨last, by simp, hlast.trans hletter, hge, ?_⟩
          rw [hindex]
          omega
        · have hfirst : c.sequence.toNat = 1 := by rw [hsequence, hone]
          omega
    · simp only [hone] at hlt
      omega
  · rintro (⟨b, hb, hletter, hge, hlt⟩ | ⟨rfl, rfl⟩)
    · by_cases hbefore : b.letter < c.letter
      · exact ⟨b, (mem_recorded h htaken b).mpr (.inl ⟨hb, hbefore⟩), hletter, hge, hlt⟩
      · -- A bucket that the claim replaces is the one it is taken from, whose index goes up.
        obtain ⟨hsame, hindex⟩ := htaken.eq_of_not_lt h.sorted hb hbefore
        refine ⟨_, (mem_recorded h htaken _).mpr (.inr (.inl rfl)), hsame.symm.trans hletter,
          hge, ?_⟩
        rw [hindex] at hlt
        simp only [hnext]
        omega
    · refine ⟨_, (mem_recorded h htaken _).mpr (.inr (.inl rfl)), rfl, hpos, ?_⟩
      simp only [hnext]
      omega

/-! ## The active bucket

What comes of the active bucket is said here of any buckets, ordered or not, and of letters that
have
several of them. -/

/-- The cursor is the one at the active bucket. -/
theorem eq_of_activeCursor {rows : List Bucket} {active : Option Cursor}
    (h : Bucket.activeCursor rows = .ok active) :
    active = (Bucket.active? rows).map fun b => ⟨b.letter, b.index⟩ := by
  unfold Bucket.activeCursor at h
  cases hbucket : Bucket.active? rows with
  | none =>
    simp only [hbucket] at h
    exact (Except.ok.inj h).symm
  | some b =>
    simp only [hbucket, Bucket.cursor, Cursor.ofIndex] at h
    split_ifs at h with hzero
    · exact absurd h (by simp [Except.map])
    · exact (Except.ok.inj h).symm

/-- Where a bucket is put does not matter for which one is active. -/
theorem active?_place (row : Bucket) (rows : List Bucket) :
    Bucket.active? (Ledger.place row rows) = Bucket.active? (row :: rows) := by
  induction rows with
  | nil => rfl
  | cons other rest ih =>
    unfold Ledger.place
    split_ifs with hle
    · rfl
    · have hlt : other.letter.position.val < row.letter.position.val :=
        Nat.lt_of_not_le (fun h => hle (Letter.le_iff.mpr h))
      unfold Bucket.active?
      rw [ih]
      unfold Bucket.active?
      -- Both ways the highest letter of the three is found.
      cases hrest : Bucket.active? rest with
      | none =>
        have hlast : other.letter ≤ row.letter := Letter.le_iff.mpr (by omega)
        simp only [hlast, hle, if_true, if_false]
      | some best =>
        by_cases hbest : row.letter ≤ best.letter
        · have hother : other.letter ≤ best.letter := by
            rw [Letter.le_iff] at hbest ⊢
            omega
          simp only [hbest, hother, if_true]
        · have hother : other.letter ≤ row.letter := Letter.le_iff.mpr (by omega)
          simp only [hbest, hother, if_true, if_false]
          by_cases hhigher : other.letter ≤ best.letter
          · simp only [hhigher, hbest, if_true, if_false]
          · simp only [hhigher, hle, if_false]

/-- Ordering the buckets leaves the active one. -/
theorem active?_ordered (rows : List Bucket) :
    Bucket.active? (Ledger.ordered rows) = Bucket.active? rows := by
  induction rows with
  | nil => rfl
  | cons row rows ih =>
    show Bucket.active? (Ledger.place row (Ledger.ordered rows)) = _
    rw [active?_place]
    unfold Bucket.active?
    rw [ih]

/-- Raising an index under the letter of the active bucket leaves a bucket of the letter active,
with an index that is not lower. -/
theorem active?_raise (portfolio : PortfolioCode) {rows : List Bucket} {b : Bucket}
    (h : Bucket.active? rows = some b) (index : UInt32) :
    ∃ raised, Bucket.active? (Ledger.raise portfolio rows b.letter index) = some raised ∧
      raised.letter = b.letter ∧ b.index.toNat ≤ raised.index.toNat := by
  induction rows with
  | nil => exact absurd h (by simp [Bucket.active?])
  | cons row rest ih =>
    unfold Bucket.active? at h
    unfold Ledger.raise
    cases hrest : Bucket.active? rest with
    | none =>
      simp only [hrest] at h
      obtain rfl := Option.some.inj h
      refine ⟨{ row with index := max row.index index }, ?_, rfl, ?_⟩
      · rw [if_pos rfl, Bucket.active?, hrest]
      · rw [toNat_max]
        exact Nat.le_max_left _ _
    | some best =>
      simp only [hrest] at h
      split_ifs at h with hle
      · -- The active bucket is a later one, which is raised only if no bucket in front has its
        -- letter.
        obtain rfl := Option.some.inj h
        split_ifs with hletter
        · exact ⟨best, by simp [Bucket.active?, hrest, hle], rfl, Nat.le_refl _⟩
        · obtain ⟨raised, hraised, hsame, hindex⟩ := ih hrest
          rw [← hsame] at hle
          exact ⟨raised, by simp [Bucket.active?, hraised, hle], hsame, hindex⟩
      · obtain rfl := Option.some.inj h
        refine ⟨{ row with index := max row.index index }, ?_, rfl, ?_⟩
        · rw [if_pos rfl]
          simp [Bucket.active?, hrest, hle]
        · rw [toNat_max]
          exact Nat.le_max_left _ _

end ReferenceMint.Store
