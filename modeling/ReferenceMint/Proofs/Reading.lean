import ReferenceMint.Legacy
import ReferenceMint.Proofs.Grammar
import ReferenceMint.Proofs.Text.Blank

/-!
# Reading and writing references

Under one layout, reading undoes writing and writing undoes reading: a written reference is read as
its triple (`Layout.read_of_write`), and what is read is written as it was (`Layout.write_of_read`).
Only a portfolio with the code zero is written and not read, as a code does not start with zero, and
no registry has it (`Layout.read_of_write_zero`).

So the reader accepts the texts in the form of a reference and no others, and blames the leftmost
wrong part of those (`Layout.reads_exactly_the_form`). Layouts write different texts for different
triples, and no text is written with two numbers of digits (`Layout.writes_triples_apart`).

A reference has no white space in it, so trimming leaves it alone (`Layout.trim_of_write`).
-/

namespace ReferenceMint

namespace Layout

variable {l : Layout} {t : Triple} {r : Reference}

/-- The characters of a written reference. -/
theorem toList_of_write (h : l.write t = .ok r) : r.text.toList = l.chars t := by
  rw [text_of_write h, String.toList_ofList]

/-- Every character of a padded numeral is a digit. -/
theorem isDigit_of_mem_padded {width n : Nat} {c : Char} (hc : c ∈ Numeral.padded width n) :
    c.isDigit = true := by
  unfold Numeral.padded List.leftpad at hc
  rcases List.mem_append.mp hc with hc | hc
  · rw [List.eq_of_mem_replicate hc]
    rfl
  · exact Numeral.isDigit_of_mem_digits hc

/-- A text is written with one number of digits only. -/
theorem width_of_write {m : Layout} {u : Triple} (h : l.write t = .ok r) (h' : m.write u = .ok r) :
    l.width = m.width := by
  obtain rfl : t = u := write_injective h h'
  have hchars : l.chars t = m.chars t := (toList_of_write h).symm.trans (toList_of_write h')
  unfold chars at hchars
  injection List.append_cancel_left hchars with _ hsequence
  rw [← Numeral.length_padded l.width_pos (sequence_lt_of_write h), hsequence,
    Numeral.length_padded m.width_pos (sequence_lt_of_write h')]

/-- A written reference has the form of a reference, if its portfolio code is not zero. -/
theorem form_of_write (hportfolio : t.portfolio.number ≠ 0) (h : l.write t = .ok r) :
    l.Form r.text (Numeral.digits t.portfolio.number.toNat) t.letter.char
      (Numeral.padded l.width t.sequence.toNat) where
  parts := toList_of_write h
  numeral := by
    have hlt : t.portfolio.number.toNat < 2 ^ 16 := t.portfolio.number.toNat_lt
    exact IsCode.digits (fun hzero => hportfolio (UInt16.toNat_inj.mp hzero)) (by omega)
  capital := t.letter.isCapital_char
  length := Numeral.length_padded l.width_pos (sequence_lt_of_write h)
  numeric _ hc := isDigit_of_mem_padded hc
  nonzero := by
    refine Numeral.exists_ne_zero_of_value_ne ?_
    rw [Numeral.value_padded]
    exact fun hzero => sequence_ne_zero_of_write h (UInt32.toNat_inj.mp hzero)

/-- A written reference is read as its triple, if its portfolio code is not zero. -/
theorem read_of_write (hportfolio : t.portfolio.number ≠ 0) (h : l.write t = .ok r) :
    l.read r.text = .ok t :=
  (form_of_write hportfolio h).read_eq (Numeral.value_digits _).symm (Numeral.value_padded _ _).symm

/-- What is written for a portfolio with the code zero is no reference, whatever the layout. -/
theorem read_of_write_zero (hportfolio : t.portfolio.number = 0) (h : l.write t = .ok r)
    (m : Layout) : m.read r.text = .error (.badCode r.text) := by
  have hcode : Numeral.digits t.portfolio.number.toNat = ['0'] := by
    rw [hportfolio]
    rfl
  have hparts : r.text.toList =
      ['0'] ++ t.letter.char :: Numeral.padded l.width t.sequence.toNat := by
    rw [toList_of_write h, chars, hcode]
  have hdigit : ∀ c ∈ ['0'], c.isDigit = true := by
    intro c hc
    rw [List.mem_singleton.mp hc]
    rfl
  exact (Fault.badCode hparts hdigit (t.letter.noDigit_char _) (Or.inl rfl)).read_eq

/-- A text in the form of a reference is written for the triple that its parts stand for. -/
theorem write_of_form {input : String} {code digits : List Char}
    (h : l.Form input code t.letter.char digits)
    (hnumber : t.portfolio.number.toNat = Numeral.value code)
    (hsequence : t.sequence.toNat = Numeral.value digits) : l.write t = .ok ⟨input⟩ := by
  have hlt := Numeral.value_lt h.numeric
  have hpos := Numeral.value_ne_zero h.numeric h.nonzero
  rw [h.length] at hlt
  have hbounds : 1 ≤ t.sequence.toNat ∧ t.sequence.toNat ≤ 10 ^ l.width - 1 := by omega
  obtain ⟨r, hwrite⟩ := write_eq_ok_iff.mpr hbounds
  have hchars : l.chars t = input.toList := by
    unfold chars
    rw [h.parts, hnumber, hsequence,
      Numeral.digits_value h.numeral.numeric h.numeral.ne_nil h.numeral.lead, ← h.length,
      Numeral.padded_value h.numeric hpos]
  have htext : r = ⟨input⟩ := by
    rw [← String.ofList_toList (s := input), ← hchars, ← text_of_write hwrite]
  rw [hwrite, htext]

/-- What is read is written as it was. -/
theorem write_of_read {input : String} (h : l.read input = .ok t) : l.write t = .ok ⟨input⟩ := by
  obtain ⟨code, digits, hform, hnumber, hsequence⟩ := form_of_read h
  exact write_of_form hform hnumber hsequence

/-- A text is read with one number of digits only. -/
theorem width_of_read {m : Layout} {u : Triple} {input : String} (h : l.read input = .ok t)
    (h' : m.read input = .ok u) : l.width = m.width :=
  width_of_write (write_of_read h) (write_of_read h')

/-- A text is read exactly if it has the form of a reference. The triple is what its parts stand
for, writing it gives the text back, and no layout with another number of digits reads the text. Any
other text is refused for its leftmost wrong part. -/
theorem reads_exactly_the_form (l : Layout) (input : String) :
    ((∃ t, l.read input = .ok t) ↔ ∃ code letter digits, l.Form input code letter digits) ∧
    (∀ t, l.read input = .ok t →
      (∀ code letter digits, l.Form input code letter digits →
        t.portfolio.number.toNat = Numeral.value code ∧ t.letter.char = letter ∧
          t.sequence.toNat = Numeral.value digits) ∧
      l.write t = .ok ⟨input⟩ ∧
      ∀ (m : Layout) (u : Triple), m.read input = .ok u → m.width = l.width) ∧
    ∀ e, l.read input = .error e ↔ l.Fault input e := by
  refine ⟨⟨?_, ?_⟩, ?_, fun e => ⟨fault_of_read, Fault.read_eq⟩⟩
  · rintro ⟨t, h⟩
    obtain ⟨code, digits, hform, -⟩ := form_of_read h
    exact ⟨code, t.letter.char, digits, hform⟩
  · rintro ⟨code, letter, digits, hform⟩
    obtain ⟨t, rfl, hnumber, hsequence⟩ := hform.exists_triple
    exact ⟨t, hform.read_eq hnumber hsequence⟩
  · intro t h
    refine ⟨fun code letter digits hform => ?_, write_of_read h, fun m u h' => width_of_read h' h⟩
    obtain ⟨u, rfl, hnumber, hsequence⟩ := hform.exists_triple
    obtain rfl : u = t := Except.ok.inj ((hform.read_eq hnumber hsequence).symm.trans h)
    exact ⟨hnumber, rfl, hsequence⟩

/-- The highest code is read and written back, and the number after it is refused. -/
theorem reads_exactly_the_form_highest_code :
    (⟨3, by decide, by decide⟩ : Layout).read "65535Z090" = .ok ⟨⟨65535⟩, .last, 90⟩ ∧
    (⟨3, by decide, by decide⟩ : Layout).write ⟨⟨65535⟩, .last, 90⟩ = .ok ⟨"65535Z090"⟩ ∧
    (∀ (m : Layout) (u : Triple), m.read "65535Z090" = .ok u → m.width = 3) ∧
    (⟨3, by decide, by decide⟩ : Layout).Fault "65536Z090" (.badCode "65536Z090") := by
  have hread : (⟨3, by decide, by decide⟩ : Layout).read "65535Z090" =
      .ok ⟨⟨65535⟩, .last, 90⟩ := by decide +kernel
  obtain ⟨-, hwrite, hwidth⟩ := (reads_exactly_the_form _ _).2.1 _ hread
  exact ⟨hread, hwrite, hwidth, ((reads_exactly_the_form _ _).2.2 _).mp (by decide +kernel)⟩

/-- A triple is written exactly if its sequence is from one up to the largest with the digits of the
layout. The text is read as the triple unless the portfolio code is zero, which no layout reads, and
no layout with another number of digits and no other triple has this text. -/
theorem writes_triples_apart (l : Layout) (t : Triple) :
    ((∃ r, l.write t = .ok r) ↔
      1 ≤ t.sequence.toNat ∧ t.sequence.toNat ≤ 10 ^ l.width - 1) ∧
    ∀ r, l.write t = .ok r →
      (l.read r.text = .ok t ↔ t.portfolio.number ≠ 0) ∧
      (t.portfolio.number = 0 → ∀ m : Layout, m.read r.text = .error (.badCode r.text)) ∧
      ∀ (m : Layout) (u : Triple) (s : Reference),
        m.write u = .ok s → s.text = r.text → m.width = l.width ∧ u = t := by
  refine ⟨write_eq_ok_iff, fun r h => ⟨⟨fun hread hzero => ?_, fun hcode => read_of_write hcode h⟩,
    fun hzero => read_of_write_zero hzero h, ?_⟩⟩
  · rw [read_of_write_zero hzero h l] at hread
    exact absurd hread (by simp)
  · rintro m u ⟨text⟩ h' rfl
    exact ⟨width_of_write h' h, write_injective h' h⟩

/-- The largest sequence of nine digits is written and read back, and no other triple has its
text. -/
theorem writes_triples_apart_nine_digits :
    (⟨9, by decide, by decide⟩ : Layout).write ⟨⟨7⟩, .first, 999999999⟩ = .ok ⟨"7A999999999"⟩ ∧
    (⟨9, by decide, by decide⟩ : Layout).read "7A999999999" = .ok ⟨⟨7⟩, .first, 999999999⟩ ∧
    ∀ (m : Layout) (u : Triple), m.write u = .ok ⟨"7A999999999"⟩ →
      m.width = 9 ∧ u = ⟨⟨7⟩, .first, 999999999⟩ := by
  have hwrite : (⟨9, by decide, by decide⟩ : Layout).write ⟨⟨7⟩, .first, 999999999⟩ =
      .ok ⟨"7A999999999"⟩ := by decide +kernel
  obtain ⟨hread, -, hapart⟩ := (writes_triples_apart _ _).2 _ hwrite
  exact ⟨hwrite, hread.mpr (by decide), fun m u h => hapart m u _ h rfl⟩

/-- No character of a reference is white space. -/
theorem isBlank_of_mem_chars {c : Char} (hc : c ∈ l.chars t) : Text.isBlank c = false := by
  have hdigit : ∀ c : Char, c.isDigit = true → Text.isBlank c = false := by
    intro c hc
    obtain ⟨d, hd, rfl⟩ := Numeral.exists_digitChar hc
    have hall : ∀ d < 10, Text.isBlank d.digitChar = false := by decide
    exact hall d hd
  have hletter : ∀ p : Fin 26, Text.isBlank (Letter.mk p).char = false := by decide
  unfold chars at hc
  rcases List.mem_append.mp hc with hc | hc
  · exact hdigit c (Numeral.isDigit_of_mem_digits hc)
  · rcases List.mem_cons.mp hc with rfl | hc
    · exact hletter t.letter.position
    · exact hdigit c (isDigit_of_mem_padded hc)

/-- So no character of what is written is. -/
theorem isBlank_of_mem_write (h : l.write t = .ok r) {c : Char} (hc : c ∈ r.text.toList) :
    Text.isBlank c = false := by
  rw [toList_of_write h] at hc
  exact isBlank_of_mem_chars hc

/-- Trimming leaves a written reference as it is. -/
theorem trim_of_write (h : l.write t = .ok r) : Text.trim r.text.toList = r.text.toList :=
  Text.trim_eq_self (fun _ hc => isBlank_of_mem_write h (List.mem_of_mem_head? hc))
    fun _ hc => isBlank_of_mem_write h (List.mem_of_mem_getLast? hc)

/-- A written reference is not empty. -/
theorem ne_nil_of_write (h : l.write t = .ok r) : r.text.toList ≠ [] := by
  rw [toList_of_write h]
  unfold chars
  simp

end Layout

end ReferenceMint
