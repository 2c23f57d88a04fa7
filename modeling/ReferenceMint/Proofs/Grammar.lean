import Mathlib.Tactic.Common
import ReferenceMint.Proofs.Reference

/-!
# The form of a reference

A reference consists of the numeral of a portfolio code, an upper case letter, and as many digits as
the layout has, which are not all zero (`Layout.Form`). In any other text there is a leftmost part
that is wrong (`Layout.Fault`, `Layout.form_or_fault`).

The reader first takes all digits in front (`takeWhile_of_parts`), so it always splits a text where
the form does. It reads a text of the form as the triple that the parts stand for
(`Layout.Form.read_eq`), and it reports the leftmost wrong part of any other
(`Layout.Fault.read_eq`). So its answer tells which of the two the text is (`Layout.form_of_read`,
`Layout.fault_of_read`).
-/

namespace ReferenceMint

/-- An upper case letter from `A` to `Z`. -/
def IsCapital (c : Char) : Prop := 'A' ≤ c ∧ c ≤ 'Z'

/-- The numeral of a portfolio code: digits without a zero in front, for a number from one to the
highest of sixteen bits. -/
structure IsCode (cs : List Char) : Prop where
  /-- There are digits only. -/
  numeric : ∀ c ∈ cs, c.isDigit = true
  /-- The first one is not zero. -/
  lead : cs.head? ≠ some '0'
  /-- The number is at least one. -/
  one_le : 1 ≤ Numeral.value cs
  /-- The number has sixteen bits. -/
  le : Numeral.value cs ≤ 65535

namespace Layout

/-- A text has the form of a reference, with these parts: the numeral of a code, a letter, and as
many digits as the layout has, which are not all zero. -/
structure Form (l : Layout) (input : String) (code : List Char) (letter : Char)
    (digits : List Char) : Prop where
  /-- The text consists of the parts. -/
  parts : input.toList = code ++ letter :: digits
  /-- The numeral of a code is in front. -/
  numeral : IsCode code
  /-- An upper case letter follows. -/
  capital : IsCapital letter
  /-- Behind it there are as many characters as the layout has digits. -/
  length : digits.length = l.width
  /-- They are digits. -/
  numeric : ∀ c ∈ digits, c.isDigit = true
  /-- They are not all zero. -/
  nonzero : ∃ c ∈ digits, c ≠ '0'

/-- What is wrong with a text that has not the form of a reference. The parts in front of the one
that is reported are as they should be. -/
inductive Fault (l : Layout) (input : String) : LayoutError → Prop where
  /-- The text does not start with a digit. -/
  | noCode (start : Numeral.NoDigit input.toList) : l.Fault input (.noCode input)
  /-- The digits in front start with zero, or their number has more than sixteen bits. -/
  | badCode {code rest : List Char} (parts : input.toList = code ++ rest)
      (numeric : ∀ c ∈ code, c.isDigit = true) (ends : Numeral.NoDigit rest)
      (bad : code.head? = some '0' ∨ 65535 < Numeral.value code) : l.Fault input (.badCode input)
  /-- The text ends behind the code, or goes on with something else than an upper case letter. -/
  | noLetter {code rest : List Char} (parts : input.toList = code ++ rest) (numeral : IsCode code)
      (ends : Numeral.NoDigit rest) (bad : ∀ c ∈ rest.head?, ¬ IsCapital c) :
      l.Fault input (.noLetter input)
  /-- The text does not go on with as many digits as the layout has, and nothing behind them. -/
  | digits {code rest : List Char} {letter : Char} (parts : input.toList = code ++ letter :: rest)
      (numeral : IsCode code) (capital : IsCapital letter)
      (bad : rest.length ≠ l.width ∨ ∃ c ∈ rest, c.isDigit = false) :
      l.Fault input (.digits input l.width)
  /-- The digits behind the letter are all zero. -/
  | zero {code digits : List Char} {letter : Char} (parts : input.toList = code ++ letter :: digits)
      (numeral : IsCode code) (capital : IsCapital letter) (length : digits.length = l.width)
      (bad : ∀ c ∈ digits, c = '0') : l.Fault input (.zero input)

end Layout

/-! ## Letters and codes -/

/-- The upper case letters are the characters between two places of the code table. -/
theorem isCapital_iff {c : Char} :
    IsCapital c ↔ 'A'.toNat ≤ c.toNat ∧ c.toNat ≤ 'Z'.toNat := Iff.rfl

/-- The character of a letter is an upper case letter. -/
theorem Letter.isCapital_char (a : Letter) : IsCapital a.char := by
  have hall : ∀ p : Fin 26, 'A' ≤ (Letter.mk p).char ∧ (Letter.mk p).char ≤ 'Z' := by decide
  exact hall a.position

/-- Every upper case letter is the character of a letter. -/
theorem IsCapital.exists_letter {c : Char} (h : IsCapital c) : ∃ a : Letter, a.char = c := by
  obtain ⟨hfirst, hlast⟩ := isCapital_iff.mp h
  have hplaces : 'Z'.toNat = 'A'.toNat + 25 := rfl
  refine ⟨⟨⟨c.toNat - 'A'.toNat, by omega⟩⟩, ?_⟩
  show Char.ofNat ('A'.toNat + (c.toNat - 'A'.toNat)) = c
  rw [Nat.add_sub_cancel' hfirst, Char.ofNat_toNat]

/-- What is no upper case letter is not read as a letter. -/
theorem Letter.ofChar?_of_not_isCapital {c : Char} (h : ¬ IsCapital c) :
    Letter.ofChar? c = none := by
  unfold ofChar?
  rw [dif_neg (fun hrange => h (isCapital_iff.mpr hrange))]

/-- A text that goes on with a letter does not go on with a digit. -/
theorem Letter.noDigit_char (a : Letter) (cs : List Char) : Numeral.NoDigit (a.char :: cs) := by
  intro c hc
  rw [← Option.some.inj hc]
  exact a.isDigit_char

namespace IsCode

variable {cs : List Char}

/-- The numeral of a code is not empty. -/
theorem ne_nil (h : IsCode cs) : cs ≠ [] := by
  rintro rfl
  exact absurd h.one_le (by decide)

/-- The reader does not take the numeral of a code for an empty one. -/
theorem isEmpty_eq (h : IsCode cs) : cs.isEmpty = false := by
  rw [List.isEmpty_eq_false_iff]
  exact h.ne_nil

/-- The reader has no objection to the numeral of a code. -/
theorem not_bad (h : IsCode cs) :
    ¬ (cs.head? = some '0' ∨ Numeral.highest 2 16 < Numeral.value cs) :=
  not_or.mpr ⟨h.lead, Nat.not_lt.mpr h.le⟩

/-- The digits of a number of sixteen bits are the numeral of a code, unless it is zero. -/
theorem digits {n : Nat} (hpos : n ≠ 0) (hle : n ≤ 65535) : IsCode (Numeral.digits n) where
  numeric _ hc := Numeral.isDigit_of_mem_digits hc
  lead hhead := by
    obtain ⟨cs, hcs⟩ := List.head?_eq_some_iff.mp hhead
    exact hpos (Numeral.eq_zero_of_digits hcs)
  one_le := by
    rw [Numeral.value_digits]
    omega
  le := by
    rw [Numeral.value_digits]
    exact hle

end IsCode

/-! ## The answer of the reader -/

namespace Layout

variable {l : Layout} {t : Triple} {input : String} {e : LayoutError}

/-- The reader splits a text behind the digits in front. -/
theorem takeWhile_of_parts {code rest : List Char} (parts : input.toList = code ++ rest)
    (numeric : ∀ c ∈ code, c.isDigit = true) (ends : Numeral.NoDigit rest) :
    input.toList.takeWhile Char.isDigit = code ∧ input.toList.drop code.length = rest := by
  rw [parts]
  exact ⟨Numeral.takeWhile_digits_append numeric ends, List.drop_left⟩

/-- A text in the form of a reference is read as the triple that its parts stand for. -/
theorem Form.read_eq {code digits : List Char} (h : l.Form input code t.letter.char digits)
    (hnumber : t.portfolio.number.toNat = Numeral.value code)
    (hsequence : t.sequence.toNat = Numeral.value digits) : l.read input = .ok t := by
  obtain ⟨htake, hdrop⟩ :=
    takeWhile_of_parts h.parts h.numeral.numeric (t.letter.noDigit_char digits)
  have hdigits : digits.all Char.isDigit = true := List.all_eq_true.mpr h.numeric
  have hvalue := Numeral.value_ne_zero h.numeric h.nonzero
  unfold read
  simp only [htake, hdrop, h.numeral.isEmpty_eq, h.numeral.not_bad, Letter.ofChar?_char, h.length,
    hdigits, hvalue, Bool.false_eq_true, ne_eq, not_true_eq_false, or_self, if_false]
  rw [← hnumber, ← hsequence, UInt16.ofNat_toNat, UInt32.ofNat_toNat]

/-- The parts of a text in the form of a reference stand for a triple. -/
theorem Form.exists_triple {code digits : List Char} {letter : Char}
    (h : l.Form input code letter digits) : ∃ t : Triple, t.letter.char = letter ∧
      t.portfolio.number.toNat = Numeral.value code ∧ t.sequence.toNat = Numeral.value digits := by
  obtain ⟨a, ha⟩ := h.capital.exists_letter
  have hcode := h.numeral.le
  -- There are at most nine digits behind the letter, so their number has thirty-two bits.
  have hlt := Numeral.value_lt h.numeric
  have hpow : 10 ^ digits.length ≤ 10 ^ 9 := by
    rw [h.length]
    exact Nat.pow_le_pow_right (by decide) l.width_le
  exact ⟨⟨⟨UInt16.ofNat (Numeral.value code)⟩, a, UInt32.ofNat (Numeral.value digits)⟩, ha,
    UInt16.toNat_ofNat_of_lt' (show Numeral.value code < 2 ^ 16 by omega),
    UInt32.toNat_ofNat_of_lt' (show Numeral.value digits < 2 ^ 32 by omega)⟩

/-- The reader reports what is wrong with a text. -/
theorem Fault.read_eq (h : l.Fault input e) : l.read input = .error e := by
  unfold read
  cases h with
  | noCode start =>
    obtain ⟨htake, -⟩ := takeWhile_of_parts (List.nil_append _).symm (by simp) start
    simp only [htake, List.isEmpty_nil, if_true]
  | badCode parts numeric ends bad =>
    rename_i code rest
    obtain ⟨htake, -⟩ := takeWhile_of_parts parts numeric ends
    have hbad : code.head? = some '0' ∨ Numeral.highest 2 16 < Numeral.value code := bad
    have hempty : code.isEmpty = false := by
      cases code with
      | nil => exact absurd bad (by decide)
      | cons c cs => rfl
    simp only [htake, hempty, hbad, Bool.false_eq_true, if_false, if_true]
  | noLetter parts numeral ends bad =>
    rename_i code rest
    obtain ⟨htake, hdrop⟩ := takeWhile_of_parts parts numeral.numeric ends
    simp only [htake, hdrop, numeral.isEmpty_eq, numeral.not_bad, Bool.false_eq_true, if_false]
    cases rest with
    | nil => rfl
    | cons c cs => simp only [Letter.ofChar?_of_not_isCapital (bad c rfl)]
  | digits parts numeral capital bad =>
    rename_i code rest letter
    obtain ⟨a, rfl⟩ := capital.exists_letter
    obtain ⟨htake, hdrop⟩ := takeWhile_of_parts parts numeral.numeric (a.noDigit_char rest)
    have hbad : rest.length ≠ l.width ∨ ¬ rest.all Char.isDigit = true := by
      rw [List.all_eq_true, not_forall]
      refine bad.imp_right ?_
      rintro ⟨c, hc, hdigit⟩
      exact ⟨c, fun hall => absurd (hall hc) (by simp [hdigit])⟩
    simp only [htake, hdrop, numeral.isEmpty_eq, numeral.not_bad, Letter.ofChar?_char,
      Bool.false_eq_true, if_false]
    rw [if_pos hbad]
  | zero parts numeral capital length bad =>
    rename_i code digits letter
    obtain ⟨a, rfl⟩ := capital.exists_letter
    obtain ⟨htake, hdrop⟩ := takeWhile_of_parts parts numeral.numeric (a.noDigit_char digits)
    have hall : digits.all Char.isDigit = true := by
      refine List.all_eq_true.mpr fun c hc => ?_
      rw [bad c hc]
      rfl
    have hvalue : Numeral.value digits = 0 := by
      by_contra hne
      obtain ⟨c, hc, hzero⟩ := Numeral.exists_ne_zero_of_value_ne hne
      exact hzero (bad c hc)
    simp only [htake, hdrop, numeral.isEmpty_eq, numeral.not_bad, Letter.ofChar?_char, length, hall,
      hvalue, Bool.false_eq_true, ne_eq, not_true_eq_false, or_self, if_false, if_true]

/-- A text has the form of a reference, or something is wrong with it. -/
theorem form_or_fault (l : Layout) (input : String) :
    (∃ code letter digits, l.Form input code letter digits) ∨ ∃ e, l.Fault input e := by
  have parts := (List.takeWhile_append_dropWhile (p := Char.isDigit) (l := input.toList)).symm
  have numeric : ∀ c ∈ input.toList.takeWhile Char.isDigit, c.isDigit = true :=
    List.all_eq_true.mp List.all_takeWhile
  have ends : Numeral.NoDigit (input.toList.dropWhile Char.isDigit) := by
    intro c hc
    have hhead := List.head?_dropWhile_not Char.isDigit input.toList
    rw [Option.mem_def.mp hc] at hhead
    exact hhead
  generalize input.toList.takeWhile Char.isDigit = code at parts numeric
  generalize input.toList.dropWhile Char.isDigit = rest at parts ends
  -- The parts are looked at from the left, and the first one that is wrong is the fault.
  by_cases hempty : code = []
  · subst hempty
    exact Or.inr ⟨_, .noCode (by rw [parts]; exact ends)⟩
  by_cases hbad : code.head? = some '0' ∨ 65535 < Numeral.value code
  · exact Or.inr ⟨_, .badCode parts numeric ends hbad⟩
  obtain ⟨hlead, hlarge⟩ := not_or.mp hbad
  have numeral : IsCode code :=
    ⟨numeric, hlead, Numeral.one_le_value numeric hempty hlead, Nat.le_of_not_lt hlarge⟩
  by_cases hcapital : ∀ c ∈ rest.head?, ¬ IsCapital c
  · exact Or.inr ⟨_, .noLetter parts numeral ends hcapital⟩
  push Not at hcapital
  obtain ⟨letter, hhead, capital⟩ := hcapital
  obtain ⟨digits, rfl⟩ := List.head?_eq_some_iff.mp hhead
  by_cases hdigits : digits.length ≠ l.width ∨ ∃ c ∈ digits, c.isDigit = false
  · exact Or.inr ⟨_, .digits parts numeral capital hdigits⟩
  push Not at hdigits
  obtain ⟨length, hnumeric⟩ := hdigits
  by_cases hzero : ∀ c ∈ digits, c = '0'
  · exact Or.inr ⟨_, .zero parts numeral capital length hzero⟩
  push Not at hzero
  exact Or.inl ⟨code, letter, digits, parts, numeral, capital, length,
    fun c hc => by simpa using hnumeric c hc, hzero⟩

/-- What is read has the form of a reference, and the parts stand for the triple. -/
theorem form_of_read (h : l.read input = .ok t) :
    ∃ code digits, l.Form input code t.letter.char digits ∧
      t.portfolio.number.toNat = Numeral.value code ∧ t.sequence.toNat = Numeral.value digits := by
  rcases form_or_fault l input with ⟨code, letter, digits, hform⟩ | ⟨e, hfault⟩
  · obtain ⟨u, rfl, hnumber, hsequence⟩ := hform.exists_triple
    obtain rfl : u = t := Except.ok.inj ((hform.read_eq hnumber hsequence).symm.trans h)
    exact ⟨code, digits, hform, hnumber, hsequence⟩
  · exact absurd (hfault.read_eq.symm.trans h) (by simp)

/-- What the reader reports is wrong with the text. -/
theorem fault_of_read (h : l.read input = .error e) : l.Fault input e := by
  rcases form_or_fault l input with ⟨code, letter, digits, hform⟩ | ⟨d, hfault⟩
  · obtain ⟨u, rfl, hnumber, hsequence⟩ := hform.exists_triple
    exact absurd ((hform.read_eq hnumber hsequence).symm.trans h) (by simp)
  · obtain rfl : d = e := Except.error.inj (hfault.read_eq.symm.trans h)
    exact hfault

end Layout

end ReferenceMint
