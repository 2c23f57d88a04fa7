import ReferenceMint.Proofs.Remaining
import ReferenceMint.Proofs.Store.Rows

/-!
# Claims taken one after the other

A walk takes claims one after the other, each at the cursor after the one before. Every claim of it
is taken at a cursor that is no lower than the first one (`Cursor.mem_walk`), and has a lower rank
than the cursor after it, so no sequence is claimed twice (`Cursor.pairwise_walk`). Each claim uses
up one of the sequences that remain (`Cursor.room_after`), so the walk ends after as many claims as
there were sequences (`Cursor.room_walk`).

All of this needs a capacity below the highest number of all. Under the highest number as capacity
no cursor is past it, so no walk ends (`Cursor.walk_ends_iff`): the successor of the highest number
is that number itself, and the last claim at `Z` is repeated.
-/

namespace ReferenceMint

namespace Cursor

variable {capacity : UInt32} {s : Cursor} {c : Claim}

/-! ## Single claims -/

/-- A capacity of zero stands for one. -/
theorem claim_max_one (capacity : UInt32) (s : Cursor) :
    s.claim (max capacity 1) = s.claim capacity := by
  have hmax : max (max capacity 1) 1 = max capacity 1 := by
    apply UInt32.toNat_inj.mp
    simp only [toNat_max]
    omega
  unfold claim
  simp only [hmax]

/-- The cursor after a claim has an index from one on. -/
theorem one_le_index_after (c : Claim) : 1 ≤ c.after.index.toNat := by
  unfold Claim.after
  cases c.opened with
  | none => exact one_le_toNat_successor _
  | some next => exact Nat.le_refl 1

/-- There is no claim exactly if no sequence remains. -/
theorem claim_eq_none_iff (hs : 1 ≤ s.index.toNat) (hcapacity : 1 ≤ capacity.toNat) :
    s.claim capacity = none ↔ s.room capacity = 0 := by
  have hsum : s.place capacity + s.room capacity = 26 * capacity.toNat := place_add_room hs
  constructor
  · intro hnone
    by_contra hroom
    rw [claim_of_place_lt hs (by omega), claim_nth (by omega)] at hnone
    exact absurd hnone (by simp)
  · intro hroom
    exact claim_eq_none hcapacity (by omega)

/-- A claim uses up one of the sequences that remain. -/
theorem room_after (hs : 1 ≤ s.index.toNat) (hcapacity : 1 ≤ capacity.toNat)
    (hbound : capacity.toNat < 2 ^ 32 - 1) (h : s.claim capacity = some c) :
    c.after.room capacity + 1 = s.room capacity := by
  have hbefore : s.place capacity + s.room capacity = 26 * capacity.toNat := place_add_room hs
  have hafter : c.after.place capacity + c.after.room capacity = 26 * capacity.toNat :=
    place_add_room (one_le_index_after c)
  have hplace := place_after hs hcapacity hbound h
  omega

/-- Without a claim no triple remains. -/
theorem remaining_of_none (portfolio : PortfolioCode) (hs : 1 ≤ s.index.toNat)
    (hcapacity : 1 ≤ capacity.toNat) (h : s.claim capacity = none) :
    Triple.remaining portfolio capacity s = [] := by
  unfold Triple.remaining
  rw [(claim_eq_none_iff hs hcapacity).mp h]
  rfl

/-- The triple of a claim is the first that remains, and the others remain after it. -/
theorem remaining_of_claim (portfolio : PortfolioCode) (hs : 1 ≤ s.index.toNat)
    (hcapacity : 1 ≤ capacity.toNat) (hbound : capacity.toNat < 2 ^ 32 - 1)
    (h : s.claim capacity = some c) : Triple.remaining portfolio capacity s =
      Store.tripleOf portfolio c :: Triple.remaining portfolio capacity c.after := by
  have hsum : s.place capacity + s.room capacity = 26 * capacity.toNat := place_add_room hs
  have hroom := room_after hs hcapacity hbound h
  have hfirst : Triple.nth portfolio capacity (s.place capacity) = Store.tripleOf portfolio c := by
    rw [claim_of_place_lt hs (by omega), claim_nth (by omega)] at h
    rw [← Option.some.inj h]
    rfl
  unfold Triple.remaining
  rw [← hroom, List.range_succ_eq_map, List.map_cons, List.map_map, Nat.add_zero, hfirst,
    place_after hs hcapacity hbound h]
  congr 1
  refine List.map_congr_left fun i _ => ?_
  show Triple.nth portfolio capacity (s.place capacity + (i + 1)) = _
  rw [Nat.add_assoc, Nat.add_comm 1 i]

/-- A claim has a lower rank than the cursor after it. -/
theorem rank_lt_rank_after (hbound : capacity.toNat < 2 ^ 32 - 1) (h : s.claim capacity = some c) :
    c.rank < c.after.rank := by
  have hsequence := sequence_le_of_claim h
  exact Claim.rank_lt_rank_after (lt_of_claim_opened h) (by omega)

/-- The rows of a claim have issued the claimed sequence. -/
theorem issued_writtenRows (portfolio : PortfolioCode) (hs : 1 ≤ s.index.toNat)
    (hbound : capacity.toNat < 2 ^ 32 - 1) (h : s.claim capacity = some c) :
    Bucket.issued (Store.writtenRows portfolio c) c.letter c.sequence = true := by
  have hsequence := sequence_le_of_claim h
  have hsuccessor : (successor c.sequence).toNat = c.sequence.toNat + 1 :=
    toNat_successor (by omega)
  rw [Store.issued_iff, Store.writtenRows_eq]
  refine ⟨_, List.mem_cons_self, rfl, one_le_sequence_of_claim hs h, ?_⟩
  simp only [hsuccessor]
  omega

/-- Under the highest number as capacity there is always a claim. -/
theorem claim_ne_none_of_highest (hcapacity : capacity.toNat = 2 ^ 32 - 1) (s : Cursor) :
    s.claim capacity ≠ none := by
  intro hnone
  have hpast := UInt32.lt_iff_toNat_lt.mp (past_of_claim_eq_none hnone).2
  have hindex := s.index.toNat_lt
  omega

/-! ## Walks -/

/-- Without a claim a walk is over. -/
theorem walk_of_none (h : s.claim capacity = none) (n : Nat) : s.walk capacity n = ([], s) := by
  cases n with
  | zero => rfl
  | succ n => simp only [walk, h]

/-- A walk goes on after its first claim. -/
theorem walk_of_some (h : s.claim capacity = some c) (n : Nat) : s.walk capacity (n + 1) =
    (c :: (c.after.walk capacity n).1, (c.after.walk capacity n).2) := by
  simp only [walk, h]

/-- Each claim of a walk is taken at a cursor that is no lower than the first one. -/
theorem mem_walk (hbound : capacity.toNat < 2 ^ 32 - 1) (hs : 1 ≤ s.index.toNat) {n : Nat}
    (hc : c ∈ (s.walk capacity n).1) :
    ∃ t : Cursor, 1 ≤ t.index.toNat ∧ s.rank ≤ t.rank ∧ t.claim capacity = some c := by
  induction n generalizing s with
  | zero => exact absurd hc (by simp [walk])
  | succ n ih =>
    cases hclaim : s.claim capacity with
    | none =>
      rw [walk_of_none hclaim] at hc
      exact absurd hc (by simp)
    | some first =>
      rw [walk_of_some hclaim] at hc
      rcases List.mem_cons.mp hc with rfl | hc
      · exact ⟨s, hs, Nat.le_refl _, hclaim⟩
      · obtain ⟨t, ht, hrank, hc⟩ := ih (one_le_index_after first) hc
        have hfirst := rank_le_of_claim hclaim
        have hafter := rank_lt_rank_after hbound hclaim
        exact ⟨t, ht, by omega, hc⟩

/-- The claims of a walk come in the order of their ranks. -/
theorem pairwise_walk (hbound : capacity.toNat < 2 ^ 32 - 1) (s : Cursor) (n : Nat) :
    (s.walk capacity n).1.Pairwise fun c d => c.rank < d.rank := by
  induction n generalizing s with
  | zero => exact List.Pairwise.nil
  | succ n ih =>
    cases hclaim : s.claim capacity with
    | none =>
      rw [walk_of_none hclaim]
      exact List.Pairwise.nil
    | some first =>
      rw [walk_of_some hclaim]
      refine List.pairwise_cons.mpr ⟨fun d hd => ?_, ih _⟩
      obtain ⟨t, -, hrank, hd⟩ := mem_walk hbound (one_le_index_after first) hd
      have hafter := rank_lt_rank_after hbound hclaim
      have hle := rank_le_of_claim hd
      omega

/-- A walk stays at indexes from one on. -/
theorem one_le_index_walk (hs : 1 ≤ s.index.toNat) (n : Nat) :
    1 ≤ (s.walk capacity n).2.index.toNat := by
  induction n generalizing s with
  | zero => exact hs
  | succ n ih =>
    cases hclaim : s.claim capacity with
    | none =>
      rw [walk_of_none hclaim]
      exact hs
    | some first =>
      rw [walk_of_some hclaim]
      exact ih (one_le_index_after first)

/-- A walk uses up a sequence with every step, as long as one remains. -/
theorem room_walk (hcapacity : 1 ≤ capacity.toNat) (hbound : capacity.toNat < 2 ^ 32 - 1)
    (hs : 1 ≤ s.index.toNat) (n : Nat) :
    (s.walk capacity n).2.room capacity = s.room capacity - n := by
  induction n generalizing s with
  | zero => rfl
  | succ n ih =>
    cases hclaim : s.claim capacity with
    | none =>
      have hroom := (claim_eq_none_iff hs hcapacity).mp hclaim
      rw [walk_of_none hclaim, hroom, Nat.zero_sub]
    | some first =>
      have hafter := room_after hs hcapacity hbound hclaim
      rw [walk_of_some hclaim, ← hafter, Nat.add_sub_add_right]
      exact ih (one_le_index_after first)

/-- A capacity of zero stands for one along a walk. -/
theorem walk_max_one (capacity : UInt32) (n : Nat) (s : Cursor) :
    s.walk (max capacity 1) n = s.walk capacity n := by
  induction n generalizing s with
  | zero => rfl
  | succ n ih =>
    unfold walk
    rw [claim_max_one]
    cases s.claim capacity with
    | none => rfl
    | some first => simp only [ih]

/-- A walk has come to its end exactly when it has taken as many claims as sequences remained. -/
theorem claim_walk_eq_none_iff (hs : 1 ≤ s.index.toNat) (hbound : capacity.toNat < 2 ^ 32 - 1)
    (n : Nat) :
    (s.walk capacity n).2.claim capacity = none ↔ s.room (max capacity 1) ≤ n := by
  have hone : (1 : UInt32).toNat = 1 := rfl
  have hmax : (max capacity 1).toNat = max capacity.toNat 1 := toNat_max capacity 1
  have hlow : 1 ≤ (max capacity 1).toNat := by omega
  have hhigh : (max capacity 1).toNat < 2 ^ 32 - 1 := by omega
  have hroom := room_walk hlow hhigh hs n
  have hnone := claim_eq_none_iff (one_le_index_walk hs n : 1 ≤ (s.walk capacity n).2.index.toNat)
    hlow
  rw [walk_max_one] at hroom
  rw [← claim_max_one, hnone, hroom]
  omega

/-- Walks come to an end under every capacity but the highest number. -/
theorem walk_ends_iff (hs : 1 ≤ s.index.toNat) :
    (∃ n, (s.walk capacity n).2.claim capacity = none) ↔ capacity.toNat < 2 ^ 32 - 1 := by
  constructor
  · rintro ⟨n, hnone⟩
    have hcapacity := capacity.toNat_lt
    by_contra hbound
    exact claim_ne_none_of_highest (by omega) _ hnone
  · intro hbound
    exact ⟨_, (claim_walk_eq_none_iff hs hbound _).mpr (Nat.le_refl _)⟩

/-- Below the highest number, whatever the cursor and the capacity: a walk ends exactly when it has
taken as many claims as sequences remained, it claims no sequence of a letter twice, and the rows of
each claim have issued what was claimed. -/
theorem walk_runs_out_without_repeating (hs : 1 ≤ s.index.toNat)
    (hbound : capacity.toNat < 2 ^ 32 - 1) (n : Nat) :
    ((s.walk capacity n).2.claim capacity = none ↔ s.room (max capacity 1) ≤ n) ∧
    ((s.walk capacity n).1.map fun c => (c.letter, c.sequence)).Nodup ∧
    ∀ portfolio, ∀ c ∈ (s.walk capacity n).1,
      Bucket.issued (Store.writtenRows portfolio c) c.letter c.sequence = true := by
  refine ⟨claim_walk_eq_none_iff hs hbound n, ?_, fun portfolio c hc => ?_⟩
  · -- Claims of one letter and sequence have one rank.
    rw [List.nodup_iff_pairwise_ne, List.pairwise_map]
    refine (pairwise_walk hbound s n).imp fun {c d} hlt heq => ?_
    obtain ⟨hletter, hsequence⟩ := Prod.mk.inj heq
    unfold Claim.rank at hlt
    rw [hletter, hsequence] at hlt
    exact Nat.lt_irrefl _ hlt
  · obtain ⟨t, ht, -, hclaim⟩ := mem_walk hbound hs hc
    exact issued_writtenRows portfolio ht hbound hclaim

/-- A cursor whose letter is full goes on with the next letter. Under a capacity of zero one
sequence is left there, and the walk ends after it. -/
theorem walk_runs_out_without_repeating_overfull :
    ((Cursor.walk 0 1 ⟨⟨24⟩, 5⟩).2.claim 0 = none ↔ Cursor.room (max 0 1) ⟨⟨24⟩, 5⟩ ≤ 1) ∧
    ((Cursor.walk 0 1 ⟨⟨24⟩, 5⟩).1.map fun c => (c.letter, c.sequence)).Nodup ∧
    ∀ portfolio, ∀ c ∈ (Cursor.walk 0 1 ⟨⟨24⟩, 5⟩).1,
      Bucket.issued (Store.writtenRows portfolio c) c.letter c.sequence = true :=
  walk_runs_out_without_repeating (by decide) (by decide) 1

/-- Under the highest number as capacity, the last sequence of `Z` is claimed again and again: the
walk never ends, its first two claims are the same, and the claimed sequence is not issued. -/
theorem walk_repeats_highest :
    (∀ n, (Cursor.walk 4294967295 n ⟨.last, 4294967295⟩).2.claim 4294967295 ≠ none) ∧
    ((Cursor.walk 4294967295 2 ⟨.last, 4294967295⟩).1.map fun c => (c.letter, c.sequence)) =
      [(.last, 4294967295), (.last, 4294967295)] ∧
    ∀ portfolio, ∀ c ∈ (Cursor.walk 4294967295 2 ⟨.last, 4294967295⟩).1,
      Bucket.issued (Store.writtenRows portfolio c) c.letter c.sequence = false := by
  refine ⟨fun n => claim_ne_none_of_highest (by decide) _, by decide, fun portfolio c hc => ?_⟩
  have hsame : ∀ d ∈ (Cursor.walk 4294967295 2 ⟨.last, 4294967295⟩).1,
      d = .take .last 4294967295 4294967295 := by decide
  rw [hsame c hc]
  rfl

end Cursor

end ReferenceMint
