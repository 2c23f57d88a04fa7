import ReferenceMint.Proofs.Store.Rows

/-!
# The claims behind the buckets

A history is the run of claims that leads from no bucket to the buckets there are, each at the
cursor that the buckets before it hold and under a capacity of its own. Capacities may go up and
down; they only have to stay below the highest number, as the claim of that number would leave no
trace.

Along a history ranks go up (`History.pairwise_rank`), so no claim is taken twice. What the buckets
have issued is exactly what was claimed (`History.issued_iff`), and under each letter these are the
sequences below the index of its bucket (`History.claimed_iff_lt_index`).
-/

namespace ReferenceMint.Store

/-- The claims, with the latest first, that lead from no bucket to these buckets. -/
inductive History (portfolio : PortfolioCode) : List Claim → List Bucket → Prop
  /-- Nothing was claimed yet. -/
  | nil : History portfolio [] []
  /-- One more claim at the cursor. -/
  | claim {claims : List Claim} {rows : List Bucket} {capacity : UInt32} {c : Claim}
      (before : History portfolio claims rows) (bound : capacity.toNat < 2 ^ 32 - 1)
      (taken : (cursorOf rows).claim capacity = some c) :
      History portfolio (c :: claims) (recorded portfolio rows c)

namespace History

variable {portfolio : PortfolioCode} {claims : List Claim} {rows : List Bucket}

/-- The buckets that claims lead to are tidy. -/
theorem tidy (h : History portfolio claims rows) : Tidy portfolio rows := by
  induction h with
  | nil => exact tidy_nil portfolio
  | claim _ _ taken ih =>
    exact ih.recorded (takenAt_of_claim ih.sorted taken)

/-- Every claim of a history has a lower rank than the cursor after it. -/
theorem rank_lt (h : History portfolio claims rows) :
    ∀ c ∈ claims, c.rank < (cursorOf rows).rank := by
  induction h with
  | nil => simp
  | @claim claims rows capacity c before bound taken ih =>
    have htaken := takenAt_of_claim before.tidy.sorted taken
    rw [cursorOf_recorded before.tidy htaken]
    -- The capacity bounds the sequence, so the cursor after the claim is really behind it.
    have hbound := Cursor.sequence_le_of_claim taken
    have hlt : c.rank < c.after.rank := Claim.rank_lt_rank_after htaken.opened (by omega)
    intro other hother
    rcases List.mem_cons.mp hother with rfl | hother
    · exact hlt
    · exact Nat.lt_trans (Nat.lt_of_lt_of_le (ih other hother) (Cursor.rank_le_of_claim taken)) hlt

/-- Each claim of a history has a higher rank than the ones before. -/
theorem pairwise_rank (h : History portfolio claims rows) :
    claims.Pairwise fun later earlier => earlier.rank < later.rank := by
  induction h with
  | nil => exact List.Pairwise.nil
  | claim before _ taken ih =>
    rw [List.pairwise_cons]
    refine ⟨fun other hother => ?_, ih⟩
    exact Nat.lt_of_lt_of_le (before.rank_lt other hother) (Cursor.rank_le_of_claim taken)

/-- There are no more claims than ranks below the cursor. -/
theorem length_le_rank (h : History portfolio claims rows) :
    claims.length ≤ (cursorOf rows).rank := by
  induction h with
  | nil => exact Nat.zero_le _
  | @claim claims rows capacity c before bound taken ih =>
    have hle := Cursor.rank_le_of_claim taken
    have hlt := (before.claim bound taken).rank_lt c List.mem_cons_self
    rw [List.length_cons]
    omega

/-- The buckets have issued exactly what was claimed. -/
theorem issued_iff (h : History portfolio claims rows) {letter : Letter} {sequence : UInt32} :
    Bucket.issued rows letter sequence = true ↔
      ∃ c ∈ claims, c.letter = letter ∧ c.sequence = sequence := by
  induction h with
  | nil => simp [Bucket.issued]
  | claim before bound taken ih =>
    have htaken := takenAt_of_claim before.tidy.sorted taken
    have hbound := Cursor.sequence_le_of_claim taken
    rw [issued_recorded before.tidy htaken (by omega), ih]
    simp [or_comm]

/-- What was claimed under the letter of a bucket are the sequences from one up to its index. -/
theorem claimed_iff_lt_index (h : History portfolio claims rows) {b : Bucket} (hb : b ∈ rows)
    {sequence : UInt32} : (∃ c ∈ claims, c.letter = b.letter ∧ c.sequence = sequence) ↔
      1 ≤ sequence.toNat ∧ sequence.toNat < b.index.toNat := by
  rw [← h.issued_iff, Store.issued_iff]
  constructor
  · rintro ⟨other, hother, hletter, hcovers⟩
    -- Ordered buckets have different letters, so the bucket is the only one with its letter.
    obtain rfl : other = b := by
      by_contra hne
      have hsorted := h.tidy.sorted
      rcases List.mem_iff_getElem.mp hother with ⟨i, hi, rfl⟩
      rcases List.mem_iff_getElem.mp hb with ⟨j, hj, rfl⟩
      rcases Nat.lt_trichotomy i j with hij | rfl | hij
      · exact Letter.ne_of_lt (List.pairwise_iff_getElem.mp hsorted i j hi hj hij) hletter
      · exact hne rfl
      · exact Letter.ne_of_lt (List.pairwise_iff_getElem.mp hsorted j i hj hi hij) hletter.symm
    exact hcovers
  · exact fun hcovers => ⟨b, hb, rfl, hcovers⟩

end History

end ReferenceMint.Store
