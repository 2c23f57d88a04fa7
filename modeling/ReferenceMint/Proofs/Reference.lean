import Mathlib.Tactic.Common
import ReferenceMint.Configuration
import ReferenceMint.Proofs.Exchange
import ReferenceMint.Proofs.Text.Numeral

/-!
# Written references

The letter ends the digits of the portfolio code, and the value of the digits behind it does not
depend on how many zeros are in front. So a text is the reference of at most one triple, even among
layouts of different widths (`Layout.write_injective`). A layout writes the sequences from one to
its largest (`Layout.write_eq_ok_iff`), and settings only allow such sequences
(`Settings.write_eq_ok`).
-/

namespace ReferenceMint

/-- A letter is no digit. -/
theorem Letter.isDigit_char (a : Letter) : a.char.isDigit = false := by
  have hall : ∀ p : Fin 26, (Letter.mk p).char.isDigit = false := by decide
  exact hall a.position

namespace Layout

/-- The characters of a reference determine the triple, whatever the layout. -/
theorem chars_injective {l m : Layout} {t u : Triple} (h : l.chars t = m.chars u) : t = u := by
  unfold chars at h
  have hdigit : ∀ n, ∀ c ∈ Numeral.digits n, c.isDigit = true := fun n c hc =>
    Numeral.isDigit_of_mem_digits hc
  have hends : ∀ (a : Letter) (cs : List Char), Numeral.NoDigit (a.char :: cs) := by
    intro a cs c hc
    rw [← Option.some.inj hc]
    exact a.isDigit_char
  -- The digits in front are those of the code, as the letter ends them.
  have hcode := congrArg (List.takeWhile Char.isDigit) h
  rw [Numeral.takeWhile_digits_append (hdigit _) (hends _ _),
    Numeral.takeWhile_digits_append (hdigit _) (hends _ _)] at hcode
  rw [hcode] at h
  injection List.append_cancel_left h with hletter hsequence
  -- The layouts may pad to different widths, and zeros in front do not change the sequence.
  have hvalue := congrArg Numeral.value hsequence
  rw [Numeral.value_padded, Numeral.value_padded] at hvalue
  obtain ⟨⟨number⟩, letter, sequence⟩ := t
  obtain ⟨⟨number'⟩, letter', sequence'⟩ := u
  obtain rfl : number = number' := UInt16.toNat_inj.mp (Numeral.digits_injective hcode)
  obtain rfl : letter = letter' := Letter.char_injective hletter
  obtain rfl : sequence = sequence' := UInt32.toNat_inj.mp hvalue
  rfl

/-- A written reference consists of the characters for its triple. -/
theorem text_of_write {l : Layout} {t : Triple} {r : Reference} (h : l.write t = .ok r) :
    r.text = String.ofList (l.chars t) := by
  unfold write at h
  split_ifs at h
  rw [← Except.ok.inj h]

/-- A text is the reference of at most one triple, whatever the layouts. -/
theorem write_injective {l m : Layout} {t u : Triple} {r : Reference} (h : l.write t = .ok r)
    (h' : m.write u = .ok r) : t = u := by
  apply @chars_injective l m
  apply String.ofList_injective
  rw [← text_of_write h, ← text_of_write h']

/-- The largest sequence of a layout has as many nines as the layout has digits. -/
theorem toNat_largest (l : Layout) : l.largest.toNat = 10 ^ l.width - 1 := by
  have hpow : 10 ^ l.width ≤ 10 ^ 9 := Nat.pow_le_pow_right (by decide) l.width_le
  have hsize : UInt32.size = 2 ^ 32 := rfl
  unfold largest
  rw [Numeral.highest_eq, UInt32.toNat_ofNat_of_lt']
  omega

section

variable {l : Layout} {t : Triple} {r : Reference}

/-- A written sequence has no more digits than the layout. -/
theorem sequence_lt_of_write (h : l.write t = .ok r) : t.sequence.toNat < 10 ^ l.width := by
  have hpow : 0 < 10 ^ l.width := Nat.pow_pos (by decide)
  have hlargest := l.toNat_largest
  unfold write at h
  split_ifs at h with hzero hfits
  rw [UInt32.lt_iff_toNat_lt] at hfits
  omega

/-- A written sequence is not zero. -/
theorem sequence_ne_zero_of_write (h : l.write t = .ok r) : t.sequence ≠ 0 := by
  unfold write at h
  split_ifs at h with hzero hfits
  exact hzero

/-- A triple is written if its sequence is from one up to the largest one with the digits of the
layout. -/
theorem write_eq_ok_iff : (∃ r, l.write t = .ok r) ↔
    1 ≤ t.sequence.toNat ∧ t.sequence.toNat ≤ 10 ^ l.width - 1 := by
  rw [← toNat_largest]
  constructor
  · rintro ⟨r, h⟩
    have hne : t.sequence.toNat ≠ 0 := fun hzero =>
      sequence_ne_zero_of_write h (UInt32.toNat_inj.mp hzero)
    have hlt := sequence_lt_of_write h
    rw [toNat_largest]
    omega
  · rintro ⟨hpos, hle⟩
    have hzero : t.sequence ≠ 0 := by
      intro hzero
      rw [hzero] at hpos
      exact absurd hpos (by decide)
    have hfits : ¬ l.largest < t.sequence := by
      rw [UInt32.lt_iff_toNat_lt]
      omega
    unfold write
    rw [if_neg hzero, if_neg hfits]
    exact ⟨_, rfl⟩

end

/-- No layout writes a sequence of ten digits. -/
theorem toNat_largest_lt (l : Layout) : l.largest.toNat < 10 ^ 9 := by
  have hpow : 10 ^ l.width ≤ 10 ^ 9 := Nat.pow_le_pow_right (by decide) l.width_le
  have hpos : 0 < 10 ^ l.width := Nat.pow_pos (by decide)
  rw [toNat_largest]
  omega

end Layout

namespace Settings

/-- The capacity has at most nine digits. -/
theorem toNat_capacity_lt (s : Settings) : s.capacity.toNat < 10 ^ 9 :=
  Nat.lt_of_le_of_lt (UInt32.le_iff_toNat_le.mp s.capacity_le) s.layout.toNat_largest_lt

/-- Every sequence up to the capacity is written. -/
theorem write_eq_ok (s : Settings) {t : Triple} (hpos : 1 ≤ t.sequence.toNat)
    (hle : t.sequence.toNat ≤ s.capacity.toNat) : ∃ r, s.layout.write t = .ok r := by
  have hcapacity := UInt32.le_iff_toNat_le.mp s.capacity_le
  have hlargest := s.layout.toNat_largest
  exact Layout.write_eq_ok_iff.mpr ⟨hpos, by omega⟩

end Settings

end ReferenceMint
