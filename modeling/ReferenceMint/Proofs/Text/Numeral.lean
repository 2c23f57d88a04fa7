import Mathlib.Algebra.Group.Nat.Defs
import Mathlib.Data.List.Induction
import ReferenceMint.Text.Numeral

/-!
# Numerals are read back

The digits of a number are digits, the first of them is zero only for zero itself, and their value
is the number (`value_digits`). So a number is determined by its digits, with zeros in front or
without, and the reader of bounded numbers accepts the digits of exactly the numbers within its
bound (`readDigits_eq_ite`, `readInt64_digits`).
-/

namespace ReferenceMint.Numeral

/-- Every character of a numeral is a digit. -/
theorem isDigit_of_mem_digits {n : Nat} {c : Char} (hc : c ∈ digits n) : c.isDigit = true :=
  Nat.isDigit_of_mem_toDigits (by decide) (by decide) hc

/-- A numeral has at least one digit. -/
theorem digits_ne_nil (n : Nat) : digits n ≠ [] := Nat.toDigits_ne_nil

/-- The value of a numeral is the number. -/
theorem value_digits (n : Nat) : value (digits n) = n := Nat.ofDigitChars_ten_toDigits

/-- Different numbers have different numerals. -/
theorem digits_injective {m n : Nat} (h : digits m = digits n) : m = n := by
  rw [← value_digits m, h, value_digits]

/-- The numeral of a number with several digits is the numeral of its tenth with a digit behind. -/
theorem digits_of_ten_le {n : Nat} (h : 10 ≤ n) :
    digits n = digits (n / 10) ++ [(n % 10).digitChar] := Nat.toDigits_of_base_le (by decide) h

/-- Only zero is written with a zero in front. -/
theorem eq_zero_of_digits {n : Nat} {cs : List Char} (h : digits n = '0' :: cs) : n = 0 := by
  -- The first digit of a number with several digits is that of its tenth.
  induction n using Nat.strongRecOn generalizing cs with
  | ind n ih =>
    rcases Nat.lt_or_ge n 10 with hn | hn
    · have hzero : ∀ m < 10, m.digitChar = '0' → m = 0 := by decide
      unfold digits at h
      rw [Nat.toDigits_of_lt_base hn] at h
      injection h with h
      exact hzero n hn h
    · rw [digits_of_ten_le hn] at h
      obtain ⟨c, ds, hds⟩ := List.exists_cons_of_ne_nil (digits_ne_nil (n / 10))
      rw [hds, List.cons_append] at h
      injection h with h
      -- The quotient would be zero, but it is at least one.
      have hquotient := ih (n / 10) (by omega) (hds.trans (by rw [h]))
      omega

/-- A text that does not go on with a digit. -/
def NoDigit (cs : List Char) : Prop := ∀ c ∈ cs.head?, c.isDigit = false

/-- The digits in front of such a text are taken as a whole. -/
theorem takeWhile_digits_append {ds rest : List Char} (hd : ∀ c ∈ ds, c.isDigit = true)
    (hr : NoDigit rest) : (ds ++ rest).takeWhile Char.isDigit = ds := by
  rw [List.takeWhile_append_of_pos hd]
  cases rest with
  | nil => simp
  | cons c cs =>
    have hc : c.isDigit = false := hr c rfl
    simp [hc]

/-! ## Bounded numbers -/

/-- Reading digits never makes the value smaller. -/
theorem le_ofDigitChars (ds : List Char) (acc : Nat) : acc ≤ Nat.ofDigitChars 10 ds acc := by
  induction ds generalizing acc with
  | nil => simp
  | cons c cs ih =>
    rw [Nat.ofDigitChars_cons]
    exact Nat.le_trans (by omega) (ih _)

/-- The reader accepts digits exactly if their value is within the bound. -/
theorem readDigits_eq_ite (limit : Nat) (pastLimit : ReadError) (ds : List Char) (acc : Nat)
    (hd : ∀ c ∈ ds, c.isDigit = true) (hacc : acc ≤ limit) :
    readDigits limit pastLimit acc ds =
      if Nat.ofDigitChars 10 ds acc ≤ limit then .ok (Nat.ofDigitChars 10 ds acc)
      else .error pastLimit := by
  induction ds generalizing acc with
  | nil =>
    unfold readDigits
    rw [Nat.ofDigitChars_nil, if_pos hacc]
  | cons c cs ih =>
    have hc : c.isDigit = true := hd c (by simp)
    unfold readDigits
    rw [if_pos hc, Nat.ofDigitChars_cons]
    have hnext : 10 * acc + digitValue c = 10 * acc + (c.toNat - '0'.toNat) := rfl
    rw [hnext]
    by_cases hlt : limit < 10 * acc + (c.toNat - '0'.toNat)
    · -- The reader stops here, and further digits would only raise the value.
      have hle := le_ofDigitChars cs (10 * acc + (c.toNat - '0'.toNat))
      simp only [hlt, if_true]
      rw [if_neg (by omega)]
    · simp only [hlt, if_false]
      exact ih _ (fun d hd' => hd d (by simp [hd'])) (by omega)

/-- The highest number is one below the power. -/
theorem highest_eq (base digits : Nat) : highest base digits = base ^ digits - 1 := rfl

/-- Numbers below the power are up to the highest one. -/
theorem le_highest {n base digits : Nat} (h : n < base ^ digits) : n ≤ highest base digits :=
  Nat.le_sub_one_of_lt h

/-- The numeral of a number is read as the number, if this is within sixty-four bits. -/
theorem readInt64_digits (n : Nat) :
    readInt64 (digits n) = if n ≤ limit64 then .ok (n : Int) else .error .tooLarge := by
  obtain ⟨c, cs, hcs⟩ := List.exists_cons_of_ne_nil (digits_ne_nil n)
  have hc : c.isDigit = true := isDigit_of_mem_digits (by rw [hcs]; simp)
  have hminus : c ≠ '-' := by rintro rfl; exact absurd hc (by decide)
  have hplus : c ≠ '+' := by rintro rfl; exact absurd hc (by decide)
  have hread : readDigits limit64 .tooLarge 0 (digits n) =
      if n ≤ limit64 then .ok n else .error .tooLarge := by
    rw [readDigits_eq_ite _ _ _ _ (fun d hd => isDigit_of_mem_digits hd) (Nat.zero_le _)]
    have hv : Nat.ofDigitChars 10 (digits n) 0 = n := value_digits n
    rw [hv]
  rw [hcs] at hread ⊢
  unfold readInt64 readInt readNat
  split
  · rename_i h; injection h with h; exact absurd h hminus
  · rename_i h; injection h with h; exact absurd h hminus
  · split
    · rename_i h; exact absurd h (by simp)
    · rename_i h; injection h with h; exact absurd h hplus
    · rename_i h; injection h with h; exact absurd h hplus
    · rw [hread]
      by_cases hn : n ≤ limit64
      · simp [hn, Except.map]
      · simp [hn, Except.map]

/-- What the reader of digits accepts are digits. -/
theorem isDigit_of_readDigits {limit : Nat} {pastLimit : ReadError} {cs : List Char} {acc n : Nat}
    (h : readDigits limit pastLimit acc cs = .ok n) : ∀ c ∈ cs, c.isDigit = true := by
  induction cs generalizing acc with
  | nil => simp
  | cons c cs ih =>
    unfold readDigits at h
    simp only at h
    split_ifs at h with hdigit hlimit
    exact List.forall_mem_cons.mpr ⟨hdigit, ih h⟩

/-- The reader of digits accepts digits with a value within the bound, and gives the value. -/
theorem readDigits_eq_ok_iff {limit : Nat} {pastLimit : ReadError} {cs : List Char} {n : Nat} :
    readDigits limit pastLimit 0 cs = .ok n ↔
      (∀ c ∈ cs, c.isDigit = true) ∧ value cs = n ∧ n ≤ limit := by
  constructor
  · intro h
    have hdigits := isDigit_of_readDigits h
    rw [readDigits_eq_ite limit pastLimit cs 0 hdigits (Nat.zero_le limit)] at h
    split_ifs at h with hle
    have hvalue : value cs = n := Except.ok.inj h
    exact ⟨hdigits, hvalue, hvalue ▸ hle⟩
  · rintro ⟨hdigits, rfl, hle⟩
    rw [readDigits_eq_ite limit pastLimit cs 0 hdigits (Nat.zero_le limit)]
    exact if_pos hle

/-- Characters denote a number: they are at least one digit, with a plus sign in front or none, and
the number is the value of the digits, whatever zeros it starts with. -/
def Denotes (cs : List Char) (n : Nat) : Prop :=
  ∃ ds, (cs = ds ∨ cs = '+' :: ds) ∧ ds ≠ [] ∧ (∀ d ∈ ds, d.isDigit = true) ∧ value ds = n

/-- The reader accepts exactly what denotes a number within its bound, and gives the number. -/
theorem readNat_eq_ok_iff {limit n : Nat} {cs : List Char} :
    readNat limit cs = .ok n ↔ Denotes cs n ∧ n ≤ limit := by
  have hplus : ¬ '+'.isDigit = true := by decide
  unfold readNat Denotes
  split
  · -- There is no digit.
    simp
  · simp [hplus]
  · rename_i ds hds
    rw [readDigits_eq_ok_iff]
    constructor
    · rintro ⟨hdigits, hvalue, hle⟩
      exact ⟨⟨ds, .inr rfl, hds, hdigits, hvalue⟩, hle⟩
    · rintro ⟨⟨other, hother | hother, -, hdigits, hvalue⟩, hle⟩
      · exact absurd (hdigits '+' (by simp [← hother])) hplus
      · obtain rfl : ds = other := (List.cons.inj hother).2
        exact ⟨hdigits, hvalue, hle⟩
  · rename_i hne _ hsign
    rw [readDigits_eq_ok_iff]
    constructor
    · rintro ⟨hdigits, hvalue, hle⟩
      exact ⟨⟨cs, .inl rfl, hne, hdigits, hvalue⟩, hle⟩
    · rintro ⟨⟨ds, hds | hds, -, hdigits, hvalue⟩, hle⟩
      · rw [hds]
        exact ⟨hdigits, hvalue, hle⟩
      · exact absurd hds (hsign ds)

/-! ## Padded numerals -/

/-- Zeros in front do not change the value. -/
theorem value_padded (width n : Nat) : value (padded width n) = n := by
  unfold padded List.leftpad value
  rw [Nat.ofDigitChars_append, Nat.ofDigitChars_replicate_zero, Nat.mul_zero]
  exact value_digits n

/-- A number of at most `width` digits is padded to exactly that many. -/
theorem length_padded {width n : Nat} (hw : 0 < width) (h : n < 10 ^ width) :
    (padded width n).length = width := by
  have hlen : (digits n).length ≤ width := (Nat.length_toDigits_le_iff (by decide) hw).mpr h
  unfold padded
  rw [List.length_leftpad]
  omega

/-! ## Numerals that were read -/

/-- A digit is the character of a number below ten. -/
theorem exists_digitChar {c : Char} (h : c.isDigit = true) : ∃ d < 10, c = d.digitChar := by
  have hrange : 48 ≤ c.toNat ∧ c.toNat ≤ 57 := by
    unfold Char.isDigit at h
    rw [Bool.and_eq_true, decide_eq_true_eq, decide_eq_true_eq] at h
    exact h
  have hchar : ∀ d < 10, Char.ofNat (48 + d) = d.digitChar := by decide
  refine ⟨c.toNat - 48, by omega, ?_⟩
  rw [← hchar (c.toNat - 48) (by omega), Nat.add_sub_cancel' hrange.1, Char.ofNat_toNat]

/-- One more digit behind makes the value ten times as much and adds its own. -/
theorem value_append_digitChar (ds : List Char) {d : Nat} (hd : d < 10) :
    value (ds ++ [d.digitChar]) = 10 * value ds + d := by
  unfold value
  rw [Nat.ofDigitChars_append, Nat.ofDigitChars_cons_digitChar_of_lt_ten hd, Nat.ofDigitChars_nil]

/-- So many digits stand for a number below the power. -/
theorem value_lt {cs : List Char} (hd : ∀ c ∈ cs, c.isDigit = true) :
    value cs < 10 ^ cs.length := by
  induction cs using List.reverseRecOn with
  | nil => exact Nat.one_pos
  | append_singleton ds c ih =>
    obtain ⟨d, hlt, rfl⟩ := exists_digitChar (hd c (by simp))
    have hfront := ih fun c hc => hd c (by simp [hc])
    rw [value_append_digitChar ds hlt, List.length_append, List.length_singleton, Nat.pow_succ]
    omega

/-- Digits that do not start with zero are the numeral of their value. -/
theorem digits_value {cs : List Char} (hd : ∀ c ∈ cs, c.isDigit = true) (hne : cs ≠ [])
    (hzero : cs.head? ≠ some '0') : digits (value cs) = cs := by
  induction cs using List.reverseRecOn with
  | nil => exact absurd rfl hne
  | append_singleton ds c ih =>
    obtain ⟨d, hlt, rfl⟩ := exists_digitChar (hd c (by simp))
    rw [value_append_digitChar ds hlt]
    cases ds with
    | nil =>
      show digits (10 * 0 + d) = [d.digitChar]
      rw [Nat.mul_zero, Nat.zero_add]
      exact Nat.toDigits_of_lt_base hlt
    | cons first ds =>
      have hhead : (first :: ds).head? ≠ some '0' := hzero
      have hfront := ih (fun c hc => hd c (List.mem_append_left _ hc)) (by simp) hhead
      -- The value of the digits in front is not zero, as zero is written with a zero.
      have hpos : 0 < value (first :: ds) := by
        refine Nat.pos_of_ne_zero fun hvalue => hhead ?_
        rw [← hfront, hvalue]
        rfl
      have happend : digits (value (first :: ds)) ++ digits d =
          digits (10 * value (first :: ds) + d) :=
        Nat.toDigits_append_toDigits (by decide) hpos hlt
      rw [← happend, hfront]
      congr 1
      exact Nat.toDigits_of_lt_base hlt

/-- Digits that do not start with zero stand for at least one. -/
theorem one_le_value {cs : List Char} (hd : ∀ c ∈ cs, c.isDigit = true) (hne : cs ≠ [])
    (hzero : cs.head? ≠ some '0') : 1 ≤ value cs := by
  refine Nat.one_le_iff_ne_zero.mpr fun hvalue => hzero ?_
  have hdigits := digits_value hd hne hzero
  rw [hvalue] at hdigits
  rw [← hdigits]
  rfl

/-- Digits that are not all zero do not stand for zero. -/
theorem value_ne_zero {cs : List Char} (hd : ∀ c ∈ cs, c.isDigit = true)
    (h : ∃ c ∈ cs, c ≠ '0') : value cs ≠ 0 := by
  induction cs using List.reverseRecOn with
  | nil => simp at h
  | append_singleton ds c ih =>
    obtain ⟨d, hlt, rfl⟩ := exists_digitChar (hd c (by simp))
    rw [value_append_digitChar ds hlt]
    obtain ⟨e, he, hne⟩ := h
    rcases List.mem_append.mp he with he | he
    · have hfront := ih (fun c hc => hd c (by simp [hc])) ⟨e, he, hne⟩
      omega
    · obtain rfl : e = d.digitChar := by simpa using he
      have hd0 : d ≠ 0 := by
        rintro rfl
        exact hne rfl
      omega

/-- What does not stand for zero is not all zeros. -/
theorem exists_ne_zero_of_value_ne {cs : List Char} (h : value cs ≠ 0) : ∃ c ∈ cs, c ≠ '0' := by
  by_contra hall
  push Not at hall
  have hzeros : cs = List.replicate cs.length '0' := List.eq_replicate_iff.mpr ⟨rfl, hall⟩
  apply h
  unfold value
  rw [hzeros, Nat.ofDigitChars_replicate_zero, Nat.mul_zero]

/-- A zero in front does not change the value. -/
theorem value_cons_zero (cs : List Char) : value ('0' :: cs) = value cs := rfl

/-- Digits that do not all stand for zero are their value padded to their number. -/
theorem padded_value {cs : List Char} (hd : ∀ c ∈ cs, c.isDigit = true) (hpos : value cs ≠ 0) :
    padded cs.length (value cs) = cs := by
  induction cs with
  | nil => exact absurd rfl hpos
  | cons c cs ih =>
    by_cases hc : c = '0'
    · subst hc
      rw [value_cons_zero] at hpos ⊢
      have hrest := ih (fun c hc => hd c (by simp [hc])) hpos
      -- The rest has room for the whole numeral, so one more place takes one more zero.
      have hlength := congrArg List.length hrest
      unfold padded at hlength hrest ⊢
      rw [List.length_leftpad] at hlength
      unfold List.leftpad at hrest ⊢
      rw [List.length_cons, Nat.sub_add_comm (by omega), List.replicate_succ, List.cons_append,
        hrest]
    · have hnumeral : digits (value (c :: cs)) = c :: cs := by
        refine digits_value hd (by simp) ?_
        intro hhead
        exact hc (Option.some.inj hhead)
      unfold padded List.leftpad
      rw [hnumeral, Nat.sub_self]
      rfl

end ReferenceMint.Numeral
