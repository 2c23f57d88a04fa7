import ReferenceMint.Proofs.Cursor
import ReferenceMint.Reference

/-!
# The sequences of one capacity

Under one capacity the sequences of a portfolio come in a fixed order, letter by letter: in the
place `v`, counted from zero, is the sequence `v % capacity + 1` under the letter with the place
`v / capacity` in the alphabet (`Cursor.nth`). The claim at such a cursor takes the sequence there
(`Cursor.claim_nth`), and the cursor after it is the one in the next place
(`Cursor.after_claim_nth`).
-/

namespace ReferenceMint

namespace Cursor

/-- The cursor after so many claims under one capacity. -/
def nth (capacity : UInt32) (v : Nat) : Cursor :=
  ⟨⟨⟨v / capacity.toNat % 26, Nat.mod_lt _ (by decide)⟩⟩, UInt32.ofNat (v % capacity.toNat + 1)⟩

variable {capacity : UInt32} {v : Nat}

/-- The letter in a place. -/
theorem position_nth (hv : v < 26 * capacity.toNat) :
    (nth capacity v).letter.position.val = v / capacity.toNat := by
  have hlt : v / capacity.toNat < 26 := (Nat.div_lt_iff_lt_mul (by omega)).mpr hv
  exact Nat.mod_eq_of_lt hlt

/-- The sequence in a place. -/
theorem toNat_index_nth (hv : v < 26 * capacity.toNat) :
    (nth capacity v).index.toNat = v % capacity.toNat + 1 := by
  have hlt := Nat.mod_lt v (show 0 < capacity.toNat by omega)
  have hcapacity := capacity.toNat_lt
  exact UInt32.toNat_ofNat_of_lt' (Nat.lt_of_le_of_lt hlt hcapacity)

/-- The first place is that of a portfolio that has issued nothing. -/
theorem nth_zero (hcapacity : 1 ≤ capacity.toNat) : nth capacity 0 = .start := by
  have hplace : (nth capacity 0).letter.position.val = 0 := by
    rw [position_nth (by omega), Nat.zero_div]
  have hindex : (nth capacity 0).index.toNat = 1 := by
    rw [toNat_index_nth (by omega), Nat.zero_mod]
  have hletter : (nth capacity 0).letter = Cursor.start.letter := Letter.ext_position hplace
  have hsequence : (nth capacity 0).index = Cursor.start.index := UInt32.toNat_inj.mp hindex
  cases hnth : nth capacity 0
  rw [hnth] at hletter hsequence
  exact congrArg₂ Cursor.mk hletter hsequence

/-- Before the space is exhausted, the claim in a place takes the sequence there. -/
theorem claim_nth (hv : v < 26 * capacity.toNat) :
    (nth capacity v).claim capacity =
      some (.take (nth capacity v).letter (nth capacity v).index capacity) := by
  have hone : (1 : UInt32).toNat = 1 := rfl
  have hmod := Nat.mod_lt v (show 0 < capacity.toNat by omega)
  have hmax : max capacity 1 = capacity := by
    apply UInt32.toNat_inj.mp
    rw [toNat_max]
    omega
  have hle : (nth capacity v).index ≤ capacity := by
    rw [UInt32.le_iff_toNat_le, toNat_index_nth hv]
    exact hmod
  unfold claim
  simp only [hmax]
  rw [if_pos hle]

/-- After the claim in a place comes the next place. -/
theorem after_claim_nth (hv : v + 1 < 26 * capacity.toNat) :
    (Claim.take (nth capacity v).letter (nth capacity v).index capacity).after =
      nth capacity (v + 1) := by
  have hone : (1 : UInt32).toNat = 1 := rfl
  have hcapacity := capacity.toNat_lt
  have hv' : v < 26 * capacity.toNat := by omega
  have hmod := Nat.mod_lt v (show 0 < capacity.toNat by omega)
  have hindex := toNat_index_nth hv'
  unfold Claim.after
  rw [Claim.opened_take]
  by_cases hlt : (nth capacity v).index < capacity
  · -- There is a next sequence under the letter.
    rw [if_pos hlt]
    rw [UInt32.lt_iff_toNat_lt, hindex] at hlt
    have hdiv : (v + 1) / capacity.toNat = v / capacity.toNat := by
      rw [Nat.succ_div_of_not_dvd]
      intro hdvd
      have hzero := Nat.mod_eq_zero_of_dvd hdvd
      rw [Nat.add_mod, Nat.mod_eq_of_lt (show 1 < capacity.toNat by omega),
        Nat.mod_eq_of_lt hlt] at hzero
      omega
    have hmod' : (v + 1) % capacity.toNat = v % capacity.toNat + 1 := by
      rw [Nat.add_mod, Nat.mod_eq_of_lt (show 1 < capacity.toNat by omega), Nat.mod_eq_of_lt hlt]
    have hletter : (nth capacity v).letter = (nth capacity (v + 1)).letter := by
      apply Letter.ext_position
      rw [position_nth hv', position_nth hv, hdiv]
    have hnext : successor (nth capacity v).index = (nth capacity (v + 1)).index := by
      apply UInt32.toNat_inj.mp
      rw [toNat_successor (by omega), hindex, toNat_index_nth hv, hmod']
    exact congrArg₂ Cursor.mk hletter hnext
  · -- The letter is full, and there is a next one, as the space is not exhausted.
    rw [if_neg hlt]
    rw [UInt32.lt_iff_toNat_lt, hindex] at hlt
    have hdvd : capacity.toNat ∣ v + 1 := by
      have hsum : v + 1 = capacity.toNat * (v / capacity.toNat + 1) := by
        have hdivision := Nat.div_add_mod v capacity.toNat
        rw [Nat.mul_add]
        omega
      exact ⟨_, hsum⟩
    have hdiv : (v + 1) / capacity.toNat = v / capacity.toNat + 1 := Nat.succ_div_of_dvd hdvd
    have hplace : (v + 1) / capacity.toNat < 26 := (Nat.div_lt_iff_lt_mul (by omega)).mpr hv
    have hletter : (nth capacity v).letter.next? = some (nth capacity (v + 1)).letter := by
      unfold Letter.next?
      have hposition := position_nth hv'
      rw [dif_pos (by omega)]
      refine congrArg some (Letter.ext_position ?_)
      rw [position_nth hv, hdiv]
      exact congrArg (· + 1) hposition
    have hfirst : 1 = (nth capacity (v + 1)).index := by
      apply UInt32.toNat_inj.mp
      rw [toNat_index_nth hv, Nat.mod_eq_zero_of_dvd hdvd, hone]
    rw [hletter]
    exact congrArg (Cursor.mk _) hfirst

end Cursor

/-- The triple in a place among those of a portfolio under one capacity. -/
def Triple.nth (portfolio : PortfolioCode) (capacity : UInt32) (v : Nat) : Triple :=
  ⟨portfolio, (Cursor.nth capacity v).letter, (Cursor.nth capacity v).index⟩

end ReferenceMint
