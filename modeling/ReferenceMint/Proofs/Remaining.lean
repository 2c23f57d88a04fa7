import ReferenceMint.Proofs.CommitOrder
import ReferenceMint.Proofs.Enumeration

/-!
# What remains under a capacity

A cursor may have been reached under other capacities. Under a given one it stands for a place in
the order of that capacity: its own, or that of the next letter if its index is above the capacity
(`Cursor.place`). A claim takes the sequence in that place, and the cursor after it stands for the
next place (`Cursor.claim_of_place_lt`, `Cursor.place_after`). So what remains are the sequences
from that place on (`Triple.remaining`): those that the capacity admits and that do not come before
the cursor (`Triple.mem_remaining`), in their order (`Triple.pairwise_remaining`).
-/

namespace ReferenceMint

namespace Cursor

/-- The place of the next sequence under the capacity. Above the capacity it is the one after all
sequences of the letter. -/
def place (capacity : UInt32) (s : Cursor) : Nat :=
  s.letter.position.val * capacity.toNat + min (s.index.toNat - 1) capacity.toNat

/-- The number of sequences that remain under the capacity: those of the letter in use from the
index on, and all of every later letter. -/
def room (capacity : UInt32) (s : Cursor) : Nat :=
  (capacity.toNat + 1 - s.index.toNat) + (25 - s.letter.position.val) * capacity.toNat

variable {capacity : UInt32} {s : Cursor}

/-- What was passed and what remains are the sequences of all letters. -/
theorem place_add_room (hs : 1 ≤ s.index.toNat) :
    s.place capacity + s.room capacity = 26 * capacity.toNat := by
  have hletter := s.letter.position.isLt
  have hall : s.letter.position.val * capacity.toNat +
      (25 - s.letter.position.val) * capacity.toNat = 25 * capacity.toNat := by
    rw [← Nat.add_mul]
    congr 1
    omega
  unfold place room
  omega

/-- A portfolio that has issued nothing stands at the first place. -/
theorem place_start : start.place capacity = 0 := by
  have hindex : start.index.toNat = 1 := rfl
  have hletter : start.letter.position.val = 0 := rfl
  unfold place
  rw [hindex, hletter]
  omega

/-- In a portfolio that has issued nothing all sequences remain. -/
theorem room_start : start.room capacity = 26 * capacity.toNat := by
  have hsum : start.place capacity + start.room capacity = 26 * capacity.toNat :=
    place_add_room (Nat.le_refl 1)
  rw [place_start] at hsum
  omega

/-- In the place of a sequence that the capacity admits stands this sequence. -/
theorem nth_of_le {letter : Letter} {n : UInt32} (hpos : 1 ≤ n.toNat)
    (hle : n.toNat ≤ capacity.toNat) :
    nth capacity (letter.position.val * capacity.toNat + (n.toNat - 1)) = ⟨letter, n⟩ := by
  have hletter := letter.position.isLt
  have hplace : letter.position.val * capacity.toNat + (n.toNat - 1) < 26 * capacity.toNat := by
    have hmul := Nat.mul_le_mul_right capacity.toNat (show letter.position.val + 1 ≤ 26 by omega)
    rw [Nat.add_mul] at hmul
    omega
  obtain ⟨hdiv, hmod⟩ := (Nat.div_mod_unique (show 0 < capacity.toNat by omega)).mpr
    ⟨show n.toNat - 1 + capacity.toNat * letter.position.val =
      letter.position.val * capacity.toNat + (n.toNat - 1) by
        rw [Nat.mul_comm]
        omega,
      show n.toNat - 1 < capacity.toNat by omega⟩
  have hposition := position_nth hplace
  have hindex := toNat_index_nth hplace
  rw [hdiv] at hposition
  rw [hmod] at hindex
  have hsequence :
      (nth capacity (letter.position.val * capacity.toNat + (n.toNat - 1))).index = n :=
    UInt32.toNat_inj.mp (by omega)
  exact congrArg₂ Cursor.mk (Letter.ext_position hposition) hsequence

/-- A place is where the cursor in it stands. -/
theorem place_nth {v : Nat} (hv : v < 26 * capacity.toNat) :
    (nth capacity v).place capacity = v := by
  have hmod := Nat.mod_lt v (show 0 < capacity.toNat by omega)
  have hsplit := Nat.div_add_mod' v capacity.toNat
  unfold place
  rw [position_nth hv, toNat_index_nth hv]
  omega

/-- Before the space is exhausted, a claim takes the sequence in the place of the cursor. -/
theorem claim_of_place_lt (hs : 1 ≤ s.index.toNat)
    (hplace : s.place capacity < 26 * capacity.toNat) :
    s.claim capacity = (nth capacity (s.place capacity)).claim capacity := by
  rw [claim_nth hplace]
  have hone : (1 : UInt32).toNat = 1 := rfl
  have hmax : max capacity 1 = capacity := by
    apply UInt32.toNat_inj.mp
    rw [toNat_max]
    omega
  unfold claim
  simp only [hmax]
  by_cases hle : s.index ≤ capacity
  · have hnat := UInt32.le_iff_toNat_le.mp hle
    have hsame : s.place capacity =
        s.letter.position.val * capacity.toNat + (s.index.toNat - 1) := by
      unfold place
      omega
    rw [if_pos hle, hsame, nth_of_le hs hnat]
  · -- The sequences of the letter are all passed, and the next letter starts at one.
    have hnat : capacity.toNat < s.index.toNat := by
      rw [UInt32.le_iff_toNat_le] at hle
      omega
    have hpassed : s.place capacity = (s.letter.position.val + 1) * capacity.toNat := by
      unfold place
      rw [Nat.add_mul]
      omega
    have hlast : s.letter.position.val + 1 < 26 := by
      rw [hpassed] at hplace
      exact Nat.lt_of_mul_lt_mul_right hplace
    have hnext : s.letter.next? = some ⟨⟨s.letter.position.val + 1, hlast⟩⟩ := dif_pos hlast
    have hfirst : nth capacity (s.place capacity) = ⟨⟨⟨s.letter.position.val + 1, hlast⟩⟩, 1⟩ := by
      have hcursor := @nth_of_le capacity ⟨⟨s.letter.position.val + 1, hlast⟩⟩ 1 (by omega)
        (by omega)
      rw [hpassed]
      exact hcursor
    rw [if_neg hle, hnext, hfirst]
    rfl

/-- Once every sequence is passed, there is no claim. -/
theorem claim_eq_none (hcapacity : 1 ≤ capacity.toNat)
    (hplace : 26 * capacity.toNat ≤ s.place capacity) : s.claim capacity = none := by
  have hone : (1 : UInt32).toNat = 1 := rfl
  have hletter := s.letter.position.isLt
  have hmul := Nat.mul_le_mul_right capacity.toNat (show s.letter.position.val ≤ 25 by omega)
  have hpast : ¬ s.index ≤ max capacity 1 := by
    rw [UInt32.le_iff_toNat_le, toNat_max]
    unfold place at hplace
    omega
  have hlast : ¬ s.letter.position.val + 1 < 26 := by
    intro hlt
    have hmul' := Nat.mul_le_mul_right capacity.toNat (show s.letter.position.val ≤ 24 by omega)
    unfold place at hplace
    omega
  have hnext : s.letter.next? = none := dif_neg hlast
  unfold claim
  simp only
  rw [if_neg hpast, hnext]
  rfl

/-- After the claim in a place the cursor stands for the next one. -/
theorem place_after_nth {v : Nat} (hv : v < 26 * capacity.toNat)
    (hbound : capacity.toNat < 2 ^ 32 - 1) :
    (Claim.take (nth capacity v).letter (nth capacity v).index capacity).after.place capacity =
      v + 1 := by
  by_cases hnext : v + 1 < 26 * capacity.toNat
  · rw [after_claim_nth hnext, place_nth hnext]
  · -- The last sequence of the last letter leaves the cursor behind it.
    have hposition := position_nth hv
    have hindex := toNat_index_nth hv
    obtain ⟨hdiv, hmod⟩ := (Nat.div_mod_unique (show 0 < capacity.toNat by omega)).mpr
      ⟨show capacity.toNat - 1 + capacity.toNat * 25 = v by omega,
        show capacity.toNat - 1 < capacity.toNat by omega⟩
    rw [hdiv] at hposition
    rw [hmod] at hindex
    generalize nth capacity v = last at hposition hindex
    have hfull : ¬ last.index < capacity := by
      rw [UInt32.lt_iff_toNat_lt]
      omega
    have hnone : last.letter.next? = none := dif_neg (by omega)
    have hafter : (Claim.take last.letter last.index capacity).after =
        ⟨last.letter, successor last.index⟩ := by
      unfold Claim.after
      rw [Claim.opened_take, if_neg hfull, hnone]
      rfl
    have hsuccessor : (successor last.index).toNat = last.index.toNat + 1 :=
      toNat_successor (by omega)
    rw [hafter]
    unfold place
    simp only [hposition, hsuccessor]
    omega

/-- After a claim the cursor stands for the next place. -/
theorem place_after {c : Claim} (hs : 1 ≤ s.index.toNat)
    (hcapacity : 1 ≤ capacity.toNat) (hbound : capacity.toNat < 2 ^ 32 - 1)
    (h : s.claim capacity = some c) : c.after.place capacity = s.place capacity + 1 := by
  have hplace : s.place capacity < 26 * capacity.toNat := by
    by_contra hge
    rw [claim_eq_none hcapacity (by omega)] at h
    exact absurd h (by simp)
  rw [claim_of_place_lt hs hplace, claim_nth hplace] at h
  rw [← Option.some.inj h]
  exact place_after_nth hplace hbound

end Cursor

namespace Triple

/-- The order of triples is that of their ranks. -/
theorem before_iff {t u : Triple} :
    t.Before u ↔ rank t.letter t.sequence < rank u.letter u.sequence := by
  have ht := t.sequence.toNat_lt
  have hu := u.sequence.toNat_lt
  unfold Before rank
  rw [Letter.lt_iff, UInt32.lt_iff_toNat_lt]
  constructor
  · rintro (hlt | ⟨heq, hlt⟩)
    · omega
    · rw [heq]
      omega
  · intro hrank
    rcases Nat.lt_trichotomy t.letter.position.val u.letter.position.val with hlt | heq | hgt
    · exact .inl hlt
    · exact .inr ⟨Letter.ext_position heq, by omega⟩
    · omega

variable {portfolio : PortfolioCode} {capacity : UInt32} {s : Cursor}

/-- Earlier places come before later ones. -/
theorem nth_before {v w : Nat} (hvw : v < w) (hw : w < 26 * capacity.toNat) :
    (Triple.nth portfolio capacity v).Before (.nth portfolio capacity w) := by
  have hv : v < 26 * capacity.toNat := by omega
  have hcapacity : 0 < capacity.toNat := by omega
  have hmodv := Nat.mod_lt v hcapacity
  have hmodw := Nat.mod_lt w hcapacity
  have hdivide : v / capacity.toNat ≤ w / capacity.toNat := Nat.div_le_div_right (by omega)
  rcases Nat.lt_or_eq_of_le hdivide with hlt | heq
  · left
    rw [Letter.lt_iff]
    show (Cursor.nth capacity v).letter.position.val < (Cursor.nth capacity w).letter.position.val
    rw [Cursor.position_nth hv, Cursor.position_nth hw]
    exact hlt
  · right
    refine ⟨Letter.ext_position ?_, UInt32.lt_iff_toNat_lt.mpr ?_⟩
    · show (Cursor.nth capacity v).letter.position.val =
        (Cursor.nth capacity w).letter.position.val
      rw [Cursor.position_nth hv, Cursor.position_nth hw, heq]
    · show (Cursor.nth capacity v).index.toNat < (Cursor.nth capacity w).index.toNat
      have hsplitv := Nat.div_add_mod v capacity.toNat
      have hsplitw := Nat.div_add_mod w capacity.toNat
      rw [heq] at hsplitv
      rw [Cursor.toNat_index_nth hv, Cursor.toNat_index_nth hw]
      omega

/-- The place of a sequence that the capacity admits is lower than that of a cursor exactly if the
sequence comes before the cursor. -/
theorem place_lt_iff {letter : Letter} {sequence : UInt32} (hpos : 1 ≤ sequence.toNat)
    (hle : sequence.toNat ≤ capacity.toNat) :
    (Cursor.mk letter sequence).place capacity < s.place capacity ↔
      Triple.Before ⟨portfolio, letter, sequence⟩ ⟨portfolio, s.letter, s.index⟩ := by
  have hsequence := sequence.toNat_lt
  have hindex := s.index.toNat_lt
  rw [before_iff]
  unfold Cursor.place rank
  simp only
  rcases Nat.lt_trichotomy letter.position.val s.letter.position.val with hlt | heq | hgt
  · have hmul := Nat.mul_le_mul_right capacity.toNat
      (show letter.position.val + 1 ≤ s.letter.position.val by omega)
    rw [Nat.add_mul] at hmul
    omega
  · rw [heq]
    omega
  · have hmul := Nat.mul_le_mul_right capacity.toNat
      (show s.letter.position.val + 1 ≤ letter.position.val by omega)
    rw [Nat.add_mul] at hmul
    omega

/-- The triples that remain of a portfolio, from the place of the cursor on. -/
def remaining (portfolio : PortfolioCode) (capacity : UInt32) (s : Cursor) : List Triple :=
  (List.range (s.room capacity)).map fun i => .nth portfolio capacity (s.place capacity + i)

/-- The number of triples that remain. -/
theorem length_remaining : (remaining portfolio capacity s).length = s.room capacity := by
  unfold remaining
  rw [List.length_map, List.length_range]

/-- The triples that remain, one by one. -/
theorem getElem?_remaining {i : Nat} (hi : i < s.room capacity) :
    (remaining portfolio capacity s)[i]? =
      some (.nth portfolio capacity (s.place capacity + i)) := by
  unfold remaining
  rw [List.getElem?_map, List.getElem?_range hi]
  rfl

/-- Of a portfolio that has issued nothing the triples remain from the first place on. -/
theorem getElem?_remaining_start {i : Nat} (hi : i < 26 * capacity.toNat) :
    (remaining portfolio capacity .start)[i]? = some (.nth portfolio capacity i) := by
  rw [getElem?_remaining (by rw [Cursor.room_start]; exact hi), Cursor.place_start, Nat.zero_add]

/-- What remains comes in order. -/
theorem pairwise_remaining (hs : 1 ≤ s.index.toNat) :
    (remaining portfolio capacity s).Pairwise Triple.Before := by
  have hsum : s.place capacity + s.room capacity = 26 * capacity.toNat := Cursor.place_add_room hs
  unfold remaining
  rw [List.pairwise_map]
  refine List.Pairwise.imp_of_mem ?_ List.pairwise_lt_range
  intro i j _ hj hij
  rw [List.mem_range] at hj
  exact nth_before (by omega) (by omega)

/-- What remains are the triples of the portfolio that the capacity admits and that do not come
before the cursor. -/
theorem mem_remaining (hs : 1 ≤ s.index.toNat) {t : Triple} :
    t ∈ remaining portfolio capacity s ↔ t.portfolio = portfolio ∧ 1 ≤ t.sequence.toNat ∧
      t.sequence.toNat ≤ capacity.toNat ∧ ¬ t.Before ⟨portfolio, s.letter, s.index⟩ := by
  have hsum : s.place capacity + s.room capacity = 26 * capacity.toNat := Cursor.place_add_room hs
  unfold remaining
  rw [List.mem_map]
  constructor
  · rintro ⟨i, hi, rfl⟩
    rw [List.mem_range] at hi
    have hv : s.place capacity + i < 26 * capacity.toNat := by omega
    have hindex := Cursor.toNat_index_nth hv
    have hmod := Nat.mod_lt (s.place capacity + i) (show 0 < capacity.toNat by omega)
    have hpos : 1 ≤ (Cursor.nth capacity (s.place capacity + i)).index.toNat := by omega
    have hle : (Cursor.nth capacity (s.place capacity + i)).index.toNat ≤ capacity.toNat := by
      omega
    refine ⟨rfl, hpos, hle, fun hbefore => ?_⟩
    have hlt : (Cursor.nth capacity (s.place capacity + i)).place capacity < s.place capacity :=
      (place_lt_iff hpos hle).mpr hbefore
    rw [Cursor.place_nth hv] at hlt
    omega
  · rintro ⟨rfl, hpos, hle, hbefore⟩
    have hplace : (Cursor.mk t.letter t.sequence).place capacity =
        t.letter.position.val * capacity.toNat + (t.sequence.toNat - 1) := by
      unfold Cursor.place
      simp only
      omega
    have hge : s.place capacity ≤ (Cursor.mk t.letter t.sequence).place capacity := by
      by_contra hlt
      exact hbefore ((place_lt_iff hpos hle).mp (by omega))
    have hletter := t.letter.position.isLt
    have hmul := Nat.mul_le_mul_right capacity.toNat (show t.letter.position.val + 1 ≤ 26 by omega)
    rw [Nat.add_mul] at hmul
    refine ⟨(Cursor.mk t.letter t.sequence).place capacity - s.place capacity,
      List.mem_range.mpr (by omega), ?_⟩
    unfold Triple.nth
    rw [Nat.add_sub_cancel' hge, hplace, Cursor.nth_of_le hpos hle]

end Triple

end ReferenceMint
