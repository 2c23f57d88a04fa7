import ReferenceMint.Proofs.Reading

/-!
# The order of references

References are compared byte by byte. Those of one portfolio start alike, then comes the letter in
one byte, and then the sequence in as many digits as the layout has, zeros in front included. Digits
of one number compare as the numbers do (`compare_digits`), so references compare as the letters and
then the sequences of their triples do (`Layout.compare_of_write`).
-/

namespace ReferenceMint

/-! ## Bytes of characters -/

/-- The bytes of characters in UTF-8. -/
def charBytes (cs : List Char) : List UInt8 := cs.flatMap String.utf8EncodeChar

/-- The bytes of characters come one after the other. -/
theorem charBytes_append (cs ds : List Char) :
    charBytes (cs ++ ds) = charBytes cs ++ charBytes ds := List.flatMap_append

/-- The bytes of a written reference are those of its characters. -/
theorem Reference.bytes_of_write {l : Layout} {t : Triple} {r : Reference}
    (h : l.write t = .ok r) : r.bytes = charBytes (l.chars t) := by
  unfold Reference.bytes charBytes
  rw [Layout.text_of_write h]
  show ((l.chars t).flatMap String.utf8EncodeChar).toByteArray.data.toList = _
  rw [List.data_toByteArray]

/-- What starts alike is compared by what follows. -/
theorem compare_append_left (bs cs ds : List UInt8) :
    compare (bs ++ cs) (bs ++ ds) = compare cs ds := by
  induction bs with
  | nil => rfl
  | cons b bs ih =>
    have hsame : compare b b = .eq := Std.ReflCmp.compare_self
    rw [List.cons_append, List.cons_append, List.compare_cons_cons, hsame, ih]
    rfl

/-- An ASCII character is one byte. -/
theorem charBytes_cons {c : Char} (hc : c.toNat ≤ 127) (cs : List Char) :
    charBytes (c :: cs) = c.val.toUInt8 :: charBytes cs := by
  have hval : c.val ≤ 127 := UInt32.le_iff_toNat_le.mpr hc
  unfold charBytes
  rw [List.flatMap_cons, String.utf8EncodeChar_eq_singleton (Char.utf8Size_eq_one_iff.mpr hval)]
  rfl

/-- Two texts that start with an ASCII character each are compared by these first. -/
theorem compare_charBytes_cons {c d : Char} (hc : c.toNat ≤ 127) (hd : d.toNat ≤ 127)
    (cs ds : List Char) : compare (charBytes (c :: cs)) (charBytes (d :: ds)) =
      (compare c.toNat d.toNat).then (compare (charBytes cs) (charBytes ds)) := by
  have hbyte : ∀ e : Char, e.toNat ≤ 127 → e.val.toUInt8.toNat = e.toNat := by
    intro e he
    rw [UInt32.toNat_toUInt8]
    exact Nat.mod_eq_of_lt (show e.toNat < 2 ^ 8 by omega)
  rw [charBytes_cons hc, charBytes_cons hd, List.compare_cons_cons,
    UInt8.compare_eq_toNat_compare_toNat, hbyte c hc, hbyte d hd]

/-! ## Digits -/

/-- A number is compared by its high part first and then by the low one, which is below the base. -/
theorem compare_mul_add {base x y v w : Nat} (hv : v < base) (hw : w < base) :
    compare (base * x + v) (base * y + w) = (compare x y).then (compare v w) := by
  have hbehind : ∀ {x y v w : Nat}, v < base → x < y → base * x + v < base * y + w := by
    intro x y v w hv hlt
    calc base * x + v < base * (x + 1) := by rw [Nat.mul_succ]; omega
      _ ≤ base * y := Nat.mul_le_mul_left base hlt
      _ ≤ base * y + w := Nat.le_add_right _ w
  rcases Nat.lt_trichotomy x y with hlt | rfl | hgt
  · rw [Nat.compare_eq_lt.mpr hlt, Nat.compare_eq_lt.mpr (hbehind hv hlt)]
    rfl
  · rw [Nat.compare_eq_eq.mpr rfl, Nat.compare_eq_ite_lt, Nat.compare_eq_ite_lt]
    simp only [Nat.add_lt_add_iff_left]
    rfl
  · rw [Nat.compare_eq_gt.mpr hgt, Nat.compare_eq_gt.mpr (hbehind hw hgt)]
    rfl

/-- Adding the same to both does not change the order. -/
theorem compare_add_left (n x y : Nat) : compare (n + x) (n + y) = compare x y := by
  rw [Nat.compare_eq_ite_lt, Nat.compare_eq_ite_lt]
  simp only [Nat.add_lt_add_iff_left]

/-- The first of some digits stands for as many powers of ten as there are digits behind it. -/
theorem Numeral.value_digitChar_cons {d : Nat} (hd : d < 10) (cs : List Char) :
    value (d.digitChar :: cs) = 10 ^ cs.length * d + value cs := by
  have hzero : '0'.toNat = 48 := rfl
  unfold value
  rw [Nat.ofDigitChars_cons, Nat.ofDigitChars_eq_ofDigitChars_zero,
    Nat.toNat_digitChar_of_lt_ten hd, hzero]
  congr 2
  omega

/-- As many digits compare as the numbers that they stand for. -/
theorem compare_digits {cs ds : List Char} (hcs : ∀ c ∈ cs, c.isDigit = true)
    (hds : ∀ d ∈ ds, d.isDigit = true) (hlength : cs.length = ds.length) :
    compare (charBytes cs) (charBytes ds) = compare (Numeral.value cs) (Numeral.value ds) := by
  induction cs generalizing ds with
  | nil =>
    obtain rfl : ds = [] := List.length_eq_zero_iff.mp hlength.symm
    rfl
  | cons c cs ih =>
    cases ds with
    | nil => exact absurd hlength (by simp)
    | cons d ds =>
      obtain ⟨x, hx, rfl⟩ := Numeral.exists_digitChar (hcs c List.mem_cons_self)
      obtain ⟨y, hy, rfl⟩ := Numeral.exists_digitChar (hds d List.mem_cons_self)
      have hcs' : ∀ c ∈ cs, c.isDigit = true := fun c hc => hcs c (List.mem_cons_of_mem _ hc)
      have hds' : ∀ d ∈ ds, d.isDigit = true := fun d hd => hds d (List.mem_cons_of_mem _ hd)
      have hrest : cs.length = ds.length := Nat.succ.inj hlength
      have hxchar := Nat.toNat_digitChar_of_lt_ten hx
      have hychar := Nat.toNat_digitChar_of_lt_ten hy
      calc compare (charBytes (x.digitChar :: cs)) (charBytes (y.digitChar :: ds))
          = (compare x.digitChar.toNat y.digitChar.toNat).then
              (compare (charBytes cs) (charBytes ds)) :=
            compare_charBytes_cons (by omega) (by omega) cs ds
        _ = (compare x y).then (compare (Numeral.value cs) (Numeral.value ds)) := by
            rw [hxchar, hychar, compare_add_left, ih hcs' hds' hrest]
        _ = compare (10 ^ cs.length * x + Numeral.value cs)
              (10 ^ cs.length * y + Numeral.value ds) := by
            rw [compare_mul_add (Numeral.value_lt hcs') (hrest ▸ Numeral.value_lt hds')]
        _ = compare (Numeral.value (x.digitChar :: cs)) (Numeral.value (y.digitChar :: ds)) := by
            rw [Numeral.value_digitChar_cons hx, Numeral.value_digitChar_cons hy, hrest]

/-! ## References -/

/-- A letter is its place in the alphabet after the character `A`. -/
theorem Letter.toNat_char (a : Letter) : a.char.toNat = 65 + a.position.val := by
  have hall : ∀ p : Fin 26, (Letter.mk p).char.toNat = 65 + p.val := by decide
  exact hall a.position

/-- The references of one portfolio compare as the letters of their triples do, and under one letter
as the sequences. -/
theorem Layout.compare_of_write {l : Layout} {t u : Triple} {r q : Reference}
    (h : l.write t = .ok r) (h' : l.write u = .ok q) (hportfolio : t.portfolio = u.portfolio) :
    compare r q = (compare t.letter.position u.letter.position).then
      (compare t.sequence u.sequence) := by
  have hletter : ∀ a : Letter, a.char.toNat ≤ 127 := by
    intro a
    have hlt := a.position.isLt
    rw [a.toNat_char]
    omega
  have hpadded : ∀ {t : Triple} {r : Reference}, l.write t = .ok r →
      (Numeral.padded l.width t.sequence.toNat).length = l.width := fun h =>
    Numeral.length_padded l.width_pos (sequence_lt_of_write h)
  have hdigits : compare (charBytes (Numeral.padded l.width t.sequence.toNat))
      (charBytes (Numeral.padded l.width u.sequence.toNat)) = compare t.sequence u.sequence := by
    rw [compare_digits (fun c hc => isDigit_of_mem_padded hc) (fun c hc => isDigit_of_mem_padded hc)
      ((hpadded h).trans (hpadded h').symm), Numeral.value_padded, Numeral.value_padded,
      UInt32.compare_eq_toNat_compare_toNat]
  show compare r.bytes q.bytes = _
  rw [Reference.bytes_of_write h, Reference.bytes_of_write h']
  unfold chars
  -- The digits of the portfolio are the same.
  rw [hportfolio, charBytes_append, charBytes_append, compare_append_left,
    compare_charBytes_cons (hletter _) (hletter _), Letter.toNat_char, Letter.toNat_char,
    compare_add_left, hdigits]
  rfl

end ReferenceMint
