import Mathlib.Data.List.DropRight
import Mathlib.Data.List.TakeWhile
import Mathlib.Tactic.Common
import ReferenceMint.Text.Blank

/-!
# White space, pieces and lines of a text

Trimming leaves nothing exactly of the texts that are blank (`trim_eq_nil_iff`), and leaves a text
as it is exactly if no white space stands at either end (`trim_eq_self`, `ends_of_trim_eq`). White
space behind a text or in front of it does not count (`trim_append_blank`, `trim_blank_append`).

The pieces between separators are those of the library (`splitAt_eq_splitOn`), and there is one more
than separators (`length_splitOn`). Cutting at the first separator undoes putting one in
(`cutAt_append_cons`). The lines of a text are read off these pieces (`lines_of_splitOn`).
-/

namespace ReferenceMint.Text

/-! ## Trimming -/

/-- Trimming leaves nothing of blank characters, and of no others. -/
theorem trim_eq_nil_iff {cs : List Char} : trim cs = [] ↔ ∀ c ∈ cs, isBlank c = true := by
  have hend : trim cs = [] ↔ ∀ c ∈ trimStart cs, isBlank c = true := List.rdropWhile_eq_nil_iff
  rw [hend]
  constructor
  · -- What was dropped at the front is blank in any case.
    intro hrest c hc
    rw [← List.takeWhile_append_dropWhile (p := isBlank) (l := cs)] at hc
    rcases List.mem_append.mp hc with hc | hc
    · exact List.mem_takeWhile_imp hc
    · exact hrest c hc
  · intro hall c hc
    exact hall c ((List.dropWhile_suffix isBlank).subset hc)

/-- Trimming leaves characters as they are if neither the first nor the last is blank. -/
theorem trim_eq_self {cs : List Char} (hhead : ∀ c ∈ cs.head?, isBlank c = false)
    (hlast : ∀ c ∈ cs.getLast?, isBlank c = false) : trim cs = cs := by
  have hstart : trimStart cs = cs := by
    cases cs with
    | nil => rfl
    | cons c cs => exact List.dropWhile_cons_of_neg (by simp [hhead c rfl])
  have hend : trimEnd cs = cs :=
    List.rdropWhile_eq_self_iff.mpr fun hne => by
      simp [hlast _ (List.getLast?_eq_some_getLast hne)]
  unfold trim
  rw [hstart, hend]

/-- Of trimmed characters neither the first nor the last is blank. -/
theorem ends_of_trim_eq {cs : List Char} (h : trim cs = cs) :
    (∀ c ∈ cs.head?, isBlank c = false) ∧ ∀ c ∈ cs.getLast?, isBlank c = false := by
  rw [← h]
  constructor
  · intro c hc
    obtain ⟨rest, hrest⟩ := List.head?_eq_some_iff.mp hc
    -- Nothing is dropped in front of what is left at the end.
    obtain ⟨dropped, hdropped⟩ : trim cs <+: trimStart cs := List.rdropWhile_prefix isBlank _
    have hhead : (cs.dropWhile isBlank).head? = some c := by
      show (trimStart cs).head? = some c
      rw [← hdropped, hrest]
      rfl
    have hne : cs.dropWhile isBlank ≠ [] := by
      rintro hnil
      rw [hnil] at hhead
      exact nomatch hhead
    have hfirst := List.head_dropWhile_not isBlank hne
    rw [List.head?_eq_some_head hne] at hhead
    rw [← Option.some.inj hhead]
    exact hfirst
  · intro c hc
    have hne : trim cs ≠ [] := by
      rintro hnil
      rw [hnil] at hc
      exact nomatch hc
    have hlast : ¬ isBlank ((trim cs).getLast hne) = true := List.rdropWhile_last_not isBlank _ hne
    rw [List.getLast?_eq_some_getLast hne] at hc
    rw [← Option.some.inj hc]
    exact Bool.eq_false_iff.mpr hlast

/-- Blank characters behind others do not count. -/
theorem trim_append_blank {cs bs : List Char} (h : ∀ b ∈ bs, isBlank b = true) :
    trim (cs ++ bs) = trim cs := by
  have hend : ∀ ds : List Char, trimEnd (ds ++ bs) = trimEnd ds := by
    intro ds
    have hbs : bs.reverse.dropWhile isBlank = [] := List.dropWhile_eq_nil_iff.mpr (by simpa using h)
    unfold trimEnd
    rw [List.reverse_append, List.dropWhile_append, hbs]
    rfl
  unfold trim trimStart
  rw [List.dropWhile_append]
  split_ifs with hempty
  · -- Nothing is left of either part.
    rw [List.isEmpty_iff.mp hempty, List.dropWhile_eq_nil_iff.mpr h]
  · exact hend _

/-- Blank characters in front of others do not count. -/
theorem trim_blank_append {bs : List Char} (cs : List Char) (h : ∀ b ∈ bs, isBlank b = true) :
    trim (bs ++ cs) = trim cs := by
  unfold trim trimStart
  rw [List.dropWhile_append_of_pos h]

/-- A character that is not blank stays the first. -/
theorem trim_cons {c : Char} (cs : List Char) (h : isBlank c = false) :
    trim (c :: cs) = c :: trimEnd cs := by
  have hsingle : [c].dropWhile isBlank = [c] := List.dropWhile_cons_of_neg (by simp [h])
  have hstart : trimStart (c :: cs) = c :: cs := List.dropWhile_cons_of_neg (by simp [h])
  unfold trim
  rw [hstart]
  unfold trimEnd
  rw [List.reverse_cons, List.dropWhile_append, hsingle]
  split_ifs with hempty
  · rw [List.isEmpty_iff.mp hempty]
    rfl
  · simp

/-! ## Pieces -/

/-- The pieces between separators are those of the library. -/
theorem splitAt_eq_splitOn (sep : Char) (cs : List Char) : splitAt sep cs = cs.splitOn sep := by
  induction cs with
  | nil => rw [List.splitOn_nil, splitAt]
  | cons c cs ih =>
    rw [List.splitOn_cons_eq_if_modifyHead, splitAt, ih]
    by_cases hsep : c = sep
    · simp [hsep]
    · have hpieces : cs.splitOn sep ≠ [] := List.splitOn_ne_nil sep cs
      cases hsplit : cs.splitOn sep with
      | nil => exact absurd hsplit hpieces
      | cons piece pieces => simp [hsep]

/-- There is one more piece than separators. -/
theorem length_splitOn (sep : Char) (cs : List Char) :
    (cs.splitOn sep).length = cs.count sep + 1 := by
  induction cs with
  | nil => rw [List.splitOn_nil]; rfl
  | cons c cs ih =>
    rw [List.splitOn_cons_eq_if_modifyHead, List.count_cons]
    by_cases hsep : c = sep
    · simp [hsep, ih]
    · simp [hsep, ih, List.length_modifyHead]

/-- A separator behind characters that are none is where they are cut. -/
theorem cutAt_append_cons {sep : Char} {cs : List Char} (h : sep ∉ cs) (rest : List Char) :
    cutAt sep (cs ++ sep :: rest) = some (cs, rest) := by
  induction cs with
  | nil => simp [cutAt]
  | cons c cs ih =>
    rw [List.mem_cons, not_or] at h
    rw [List.cons_append, cutAt, if_neg fun heq => h.1 heq.symm, ih h.2]
    rfl

/-- Without a separator there is no cut. -/
theorem cutAt_eq_none {sep : Char} {cs : List Char} (h : sep ∉ cs) : cutAt sep cs = none := by
  induction cs with
  | nil => rfl
  | cons c cs ih =>
    rw [List.mem_cons, not_or] at h
    rw [cutAt, if_neg fun heq => h.1 heq.symm, ih h.2]
    rfl

/-! ## Lines -/

/-- Nothing is lost of a line without the carriage return at its end but that. -/
theorem eq_dropReturn (line : List Char) :
    line = dropReturn line ∨ line = dropReturn line ++ ['\r'] := by
  unfold dropReturn
  split
  · next rest hreverse =>
    right
    rw [← List.reverse_cons, ← hreverse, List.reverse_reverse]
  · exact .inl rfl

/-- The lines are the pieces between line feeds, without the last one if it is empty. -/
theorem lines_of_splitOn {cs rest : List Char} {complete : List (List Char)}
    (h : cs.splitOn '\n' = complete ++ [rest]) :
    lines cs = complete.map dropReturn ++ if rest.isEmpty then [] else [rest] := by
  unfold lines
  rw [splitAt_eq_splitOn, h, List.reverse_append]
  show (complete.reverse.map dropReturn).reverse ++ _ = _
  rw [List.map_reverse, List.reverse_reverse]

/-- Lines without white space are those of the text in which each of them ends with a line feed. -/
theorem lines_flatMap {ls : List (List Char)} (h : ∀ line ∈ ls, ∀ c ∈ line, isBlank c = false) :
    lines (ls.flatMap fun line => line ++ ['\n']) = ls := by
  have hpieces : (ls.flatMap fun line => line ++ ['\n']).splitOn '\n' = ls ++ [[]] := by
    induction ls with
    | nil => rfl
    | cons line ls ih =>
      have hfeed : '\n' ∉ line := fun hc => absurd (h line (by simp) '\n' hc) (by decide)
      rw [List.flatMap_cons, List.append_assoc, List.singleton_append,
        List.splitOn_append_cons_self,
        List.splitOn_eq_singleton hfeed, ih fun other hother => h other (by simp [hother])]
      rfl
  have hkept : ls.map dropReturn = ls := by
    refine (List.map_congr_left fun line hline => ?_).trans (List.map_id ls)
    rcases eq_dropReturn line with heq | heq
    · exact heq.symm
    · have hreturn : '\r' ∈ line := by
        rw [heq]
        simp
      exact absurd (h line hline '\r' hreturn) (by decide)
  rw [lines_of_splitOn hpieces, hkept]
  exact List.append_nil ls

end ReferenceMint.Text
