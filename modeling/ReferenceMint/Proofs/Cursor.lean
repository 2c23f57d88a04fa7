import Mathlib.Algebra.Group.Nat.Defs
import Mathlib.Tactic.Common
import ReferenceMint.Cursor

/-!
# Claims go forward

Cursors and claims are ranked by letter and then by number. A claim has at least the rank of the
cursor it is taken at (`Cursor.rank_le_of_claim`), and the cursor after it has a higher rank, unless
the number is the highest there is (`Claim.rank_lt_rank_after`). So claims that are taken one after
the other never repeat.

`Cursor.claim_cases` says all there is to know about a claim at a cursor: it takes the number at the
cursor, or the first number of the next letter, and it opens a letter exactly if it takes the last
number that the capacity admits. There is none only past the capacity at `Z`
(`Cursor.past_of_claim_eq_none`).
-/

namespace ReferenceMint

namespace Letter

/-- A letter is determined by its place. -/
theorem ext_position {a b : Letter} (h : a.position.val = b.position.val) : a = b := by
  cases a
  cases b
  congr
  exact Fin.ext h

/-- A letter is before another if its place is lower. -/
theorem lt_iff {a b : Letter} : a < b ↔ a.position.val < b.position.val := Iff.rfl

/-- A letter is not after another if its place is not higher. -/
theorem le_iff {a b : Letter} : a ≤ b ↔ a.position.val ≤ b.position.val := Iff.rfl

/-- A letter before another is not that letter. -/
theorem ne_of_lt {a b : Letter} (h : a < b) : a ≠ b := by
  rintro rfl
  exact Nat.lt_irrefl _ (lt_iff.mp h)

/-- A letter is before those behind a later one. -/
theorem lt_trans {a b c : Letter} (hab : a < b) (hbc : b < c) : a < c :=
  lt_iff.mpr (Nat.lt_trans (lt_iff.mp hab) (lt_iff.mp hbc))

/-- The next letter is the one a place higher. -/
theorem next?_eq_some {a b : Letter} (h : a.next? = some b) :
    b.position.val = a.position.val + 1 := by
  unfold next? at h
  split_ifs at h with hlt
  have hb := Option.some.inj h
  rw [← hb]

/-- The next letter is a later one. -/
theorem lt_of_next? {a b : Letter} (h : a.next? = some b) : a < b := by
  have hplace := next?_eq_some h
  exact lt_iff.mpr (by omega)

/-- Only `Z` has no next letter. -/
theorem eq_last_of_next? {a : Letter} (h : a.next? = none) : a = last := by
  unfold next? at h
  split_ifs at h with hlt
  have hplace := a.position.isLt
  exact ext_position (show a.position.val = 25 by omega)

end Letter

/-! ## Numbers of thirty-two bits -/

/-- Below the highest number, the successor is one more. -/
theorem toNat_successor {n : UInt32} (h : n.toNat < 2 ^ 32 - 1) :
    (successor n).toNat = n.toNat + 1 := by
  have hlt : n < UInt32.ofNat (Numeral.highest 2 32) := UInt32.lt_iff_toNat_lt.mpr h
  unfold successor
  rw [if_pos hlt, UInt32.toNat_add]
  have hone : (1 : UInt32).toNat = 1 := rfl
  rw [hone, Nat.mod_eq_of_lt (by omega)]

/-- The successor is never lower. -/
theorem le_toNat_successor (n : UInt32) : n.toNat ≤ (successor n).toNat := by
  rcases Nat.lt_or_ge n.toNat (2 ^ 32 - 1) with h | h
  · rw [toNat_successor h]
    omega
  · have hnot : ¬ n < UInt32.ofNat (Numeral.highest 2 32) := by
      rw [UInt32.lt_iff_toNat_lt]
      exact Nat.not_lt.mpr h
    have hsame : successor n = n := if_neg hnot
    exact Nat.le_of_eq (congrArg UInt32.toNat hsame.symm)

/-- The successor is never zero. -/
theorem one_le_toNat_successor (n : UInt32) : 1 ≤ (successor n).toNat := by
  rcases Nat.lt_or_ge n.toNat (2 ^ 32 - 1) with h | h
  · rw [toNat_successor h]
    omega
  · have hle := le_toNat_successor n
    omega

/-- The successor of a number from one on is at least two. -/
theorem two_le_toNat_successor {n : UInt32} (h : 1 ≤ n.toNat) : 2 ≤ (successor n).toNat := by
  rcases Nat.lt_or_ge n.toNat (2 ^ 32 - 1) with hlt | hge
  · rw [toNat_successor hlt]
    omega
  · have hle := le_toNat_successor n
    omega

/-- The larger of two numbers is the larger of what they stand for. -/
theorem toNat_max (m n : UInt32) : (max m n).toNat = max m.toNat n.toNat := by
  rw [UInt32.max_def]
  split_ifs with h
  · rw [UInt32.le_iff_toNat_le] at h
    omega
  · rw [UInt32.le_iff_toNat_le] at h
    omega

/-! ## The order of claims -/

/-- Where a number stands in the order of all letters and numbers. -/
def rank (letter : Letter) (n : UInt32) : Nat := letter.position.val * 2 ^ 32 + n.toNat

/-- The rank of a cursor. -/
def Cursor.rank (s : Cursor) : Nat := ReferenceMint.rank s.letter s.index

/-- The rank of a claim. -/
def Claim.rank (c : Claim) : Nat := ReferenceMint.rank c.letter c.sequence

/-- There are twenty-six letters of thirty-two bits. -/
theorem Cursor.rank_lt (s : Cursor) : s.rank < 26 * 2 ^ 32 := by
  have hletter := s.letter.position.isLt
  have hindex := s.index.toNat_lt
  unfold rank ReferenceMint.rank
  omega

namespace Claim

/-- What taking a number gives: the letter, the number, and the next letter if the number is the
last one. -/
theorem opened_take (letter : Letter) (sequence capacity : UInt32) :
    (take letter sequence capacity).opened =
      if sequence < capacity then none else letter.next? := by
  unfold take opened
  by_cases h : sequence < capacity
  · simp only [h, if_true]
  · simp only [h, if_false]
    cases letter.next? <;> rfl

/-- What a claim opens is the next letter. -/
theorem next?_of_opened_take {letter next : Letter} {sequence capacity : UInt32}
    (h : (take letter sequence capacity).opened = some next) : letter.next? = some next := by
  rw [opened_take] at h
  split_ifs at h
  exact h

/-- The cursor after a claim has a higher rank, unless the claimed number is the highest of all. -/
theorem rank_lt_rank_after {c : Claim} (hopened : ∀ next, c.opened = some next → c.letter < next)
    (h : c.sequence.toNat < 2 ^ 32 - 1) : c.rank < c.after.rank := by
  unfold after
  cases hnext : c.opened with
  | none =>
    simp only [rank, Cursor.rank, ReferenceMint.rank]
    rw [toNat_successor h]
    omega
  | some next =>
    -- The first number of a later letter is behind all numbers of this one.
    have hlt := Letter.lt_iff.mp (hopened next hnext)
    simp only [rank, Cursor.rank, ReferenceMint.rank]
    have hsequence := c.sequence.toNat_lt
    omega

end Claim

namespace Cursor

/-- A claim takes the number at the cursor if the capacity admits it, and else the first number of
the next letter. -/
theorem claim_cases {s : Cursor} {capacity : UInt32} {c : Claim} (h : s.claim capacity = some c) :
    (s.index ≤ max capacity 1 ∧ c = .take s.letter s.index (max capacity 1)) ∨
    (¬ s.index ≤ max capacity 1 ∧ ∃ next, s.letter.next? = some next ∧
      c = .take next 1 (max capacity 1)) := by
  unfold claim at h
  simp only at h
  split_ifs at h with hle
  · exact .inl ⟨hle, (Option.some.inj h).symm⟩
  · obtain ⟨next, hnext, hc⟩ := Option.map_eq_some_iff.mp h
    exact .inr ⟨hle, next, hnext, hc.symm⟩

/-- Without a claim the cursor is at `Z`, past the capacity. -/
theorem past_of_claim_eq_none {s : Cursor} {capacity : UInt32} (h : s.claim capacity = none) :
    s.letter = .last ∧ capacity < s.index := by
  unfold claim at h
  simp only at h
  split_ifs at h with hle
  refine ⟨Letter.eq_last_of_next? (Option.map_eq_none_iff.mp h), ?_⟩
  rw [UInt32.le_iff_toNat_le, toNat_max] at hle
  rw [UInt32.lt_iff_toNat_lt]
  omega

/-- A claim at `Z` takes the number at the cursor, and opens no letter. -/
theorem claim_at_last {s : Cursor} {capacity : UInt32} {c : Claim} (h : s.claim capacity = some c)
    (hlast : s.letter = .last) :
    c.letter = .last ∧ c.sequence = s.index ∧ c.opened = none := by
  have hnone : Letter.last.next? = none := rfl
  rcases claim_cases h with ⟨-, rfl⟩ | ⟨-, next, hnext, -⟩
  · refine ⟨hlast, rfl, ?_⟩
    rw [Claim.opened_take, hlast, hnone]
    split_ifs <;> rfl
  · rw [hlast, hnone] at hnext
    exact absurd hnext (by simp)

/-- A cursor that is read has an index of at least one. -/
theorem one_le_index_of_ofIndex {letter : Letter} {index : UInt32} {s : Cursor}
    (h : Cursor.ofIndex letter index = .ok s) : 1 ≤ s.index.toNat := by
  unfold ofIndex at h
  split_ifs at h with hzero
  rw [← Except.ok.inj h]
  exact Nat.one_le_iff_ne_zero.mpr fun heq => hzero (UInt32.toNat_inj.mp heq)

/-- What a claim opens is the next letter. -/
theorem next?_of_claim_opened {s : Cursor} {capacity : UInt32} {c : Claim}
    (h : s.claim capacity = some c) {next : Letter} (hnext : c.opened = some next) :
    c.letter.next? = some next := by
  rcases claim_cases h with ⟨-, rfl⟩ | ⟨-, letter, -, rfl⟩
  · exact Claim.next?_of_opened_take hnext
  · exact Claim.next?_of_opened_take hnext

/-- What a claim opens is a later letter. -/
theorem lt_of_claim_opened {s : Cursor} {capacity : UInt32} {c : Claim}
    (h : s.claim capacity = some c) (next : Letter) (hnext : c.opened = some next) :
    c.letter < next :=
  Letter.lt_of_next? (next?_of_claim_opened h hnext)

/-- A claim takes no number above the capacity. -/
theorem sequence_le_of_claim {s : Cursor} {capacity : UInt32} {c : Claim}
    (h : s.claim capacity = some c) : c.sequence.toNat ≤ max capacity.toNat 1 := by
  have hone : (1 : UInt32).toNat = 1 := rfl
  rcases claim_cases h with ⟨hle, rfl⟩ | ⟨-, next, -, rfl⟩
  · rw [UInt32.le_iff_toNat_le, toNat_max, hone] at hle
    exact hle
  · show (1 : UInt32).toNat ≤ _
    rw [hone]
    omega

/-- A claim takes numbers from one on. -/
theorem one_le_sequence_of_claim {s : Cursor} {capacity : UInt32} {c : Claim}
    (hs : 1 ≤ s.index.toNat) (h : s.claim capacity = some c) : 1 ≤ c.sequence.toNat := by
  rcases claim_cases h with ⟨-, rfl⟩ | ⟨-, next, -, rfl⟩
  · exact hs
  · exact Nat.le_refl _

/-- A claim is not behind the cursor that it is taken at. -/
theorem rank_le_of_claim {s : Cursor} {capacity : UInt32} {c : Claim}
    (h : s.claim capacity = some c) : s.rank ≤ c.rank := by
  rcases claim_cases h with ⟨-, rfl⟩ | ⟨-, next, hnext, rfl⟩
  · exact Nat.le_refl _
  · have hplace := Letter.next?_eq_some hnext
    have hindex := s.index.toNat_lt
    simp only [rank, Claim.rank, Claim.take, ReferenceMint.rank]
    omega

end Cursor

end ReferenceMint
