import ReferenceMint.Proofs.Store.Table

/-!
# What the guards of a table admit

The guards of a table admit rows that no claim wrote: letters may be left out, and an index may be
higher than any sequence. What they do ensure is that every row keeps the rules for its columns and
that a key has one row (`Table.Admitted`). A statement on such a table comes to the same whether it
inserts a row or updates one: the row with the key is the written one, all other rows are as they
were, and the table is admitted again (`Table.Admitted.wrote_place`,
`Table.Admitted.wrote_withIndex`). So writes of different keys add up (`Table.Wrote.trans`).
-/

namespace ReferenceMint.Store

namespace Row

variable {a b c : Row}

/-- The order of rows is transitive. -/
theorem before_trans (hab : a.before b = true) (hbc : b.before c = true) :
    a.before c = true := by
  rw [before_iff] at hab hbc ⊢
  rcases hab with hab | ⟨hab, hletter⟩
  · rcases hbc with hbc | ⟨hbc, -⟩ <;> exact .inl (by omega)
  · rcases hbc with hbc | ⟨hbc, hletter'⟩
    · exact .inl (by omega)
    · exact .inr ⟨by omega, String.lt_trans hletter hletter'⟩

/-- Of two rows with different keys, one is before the other. -/
theorem before_of_not_before (h : a.before b = false)
    (hkey : b.hasKey a.portfolio a.letter = false) : b.before a = true := by
  have hnot : ¬ a.before b = true := by simp [h]
  have hne : ¬ b.hasKey a.portfolio a.letter = true := by simp [hkey]
  rw [before_iff] at hnot ⊢
  rw [hasKey_iff] at hne
  rcases Int.lt_trichotomy b.portfolio a.portfolio with hlt | heq | hgt
  · exact .inl hlt
  · refine .inr ⟨heq, ?_⟩
    rcases Std.lt_trichotomy b.letter a.letter with hlt | hletter | hgt
    · exact hlt
    · exact absurd ⟨heq, hletter⟩ hne
    · exact absurd (.inr ⟨heq.symm, hgt⟩) hnot
  · exact absurd (.inl hgt) hnot

/-- Rows that are in order have different keys. -/
theorem not_hasKey_of_before (h : a.before b = true) : a.hasKey b.portfolio b.letter = false := by
  refine not_hasKey fun hportfolio hletter => ?_
  rcases before_iff.mp h with hlt | ⟨-, hlt⟩
  · omega
  · rw [hletter] at hlt
    exact Std.lt_irrefl hlt

end Row

namespace Table

/-- The rows of a table as its guards let them be. -/
structure Admitted (table : Table) : Prop where
  /-- The values keep the rules for their columns. -/
  checked : ∀ row ∈ table, row.checked = true
  /-- The rows are in order, so a key has one row at most. -/
  ordered : table.Pairwise fun a b => a.before b = true

/-- The given rows were written, each in place of the row with its key if there was one, and nothing
else has changed. -/
structure Wrote (before after : Table) (rows : List Row) : Prop where
  /-- The guards admit the table. -/
  admitted : after.Admitted
  /-- A row is a written one, or one that stood before and whose key was not written. -/
  mem_iff : ∀ row, row ∈ after ↔ row ∈ rows ∨
    (row ∈ before ∧ ∀ new ∈ rows, row.hasKey new.portfolio new.letter = false)

variable {table : Table} {row : Row} {portfolio : Int} {letter : String}

/-! ## Keys -/

/-- The index of a row is found under its key. -/
theorem Admitted.index?_of_mem (h : table.Admitted) (hrow : row ∈ table) :
    table.index? row.portfolio row.letter = some row.index := by
  obtain ⟨front, back, rfl⟩ := List.append_of_mem hrow
  -- The rows in front are before this one, so none of them has its key.
  have hfront : front.find? (fun other => other.hasKey row.portfolio row.letter) = none := by
    rw [List.find?_eq_none]
    intro other hother
    have hbefore := (List.pairwise_append.mp h.ordered).2.2 other hother row (by simp)
    simp [Row.not_hasKey_of_before hbefore]
  have hself : row.hasKey row.portfolio row.letter = true := Row.hasKey_iff.mpr ⟨rfl, rfl⟩
  unfold index?
  rw [List.find?_append, hfront, Option.none_or, List.find?_cons, hself]
  rfl

/-- Under a key without a row nothing is found. -/
theorem index?_eq_none (h : ∀ row ∈ table, row.hasKey portfolio letter = false) :
    table.index? portfolio letter = none := by
  unfold index?
  rw [Option.map_eq_none_iff, List.find?_eq_none]
  intro row hrow
  simp [h row hrow]

/-- The guards admit no row of a portfolio without a positive number. -/
theorem Admitted.ofPortfolio_of_not_positive (h : table.Admitted) (hpositive : ¬ 0 < portfolio) :
    table.ofPortfolio portfolio = [] := by
  unfold ofPortfolio
  rw [List.filter_eq_nil_iff]
  intro row hrow howner
  have hchecked := h.checked row hrow
  simp only [Row.checked, Bool.and_eq_true, decide_eq_true_eq] at hchecked howner
  omega

/-- The last row of a portfolio has the highest letter. -/
theorem Admitted.le_last (h : table.Admitted)
    (hlast : (table.ofPortfolio portfolio).getLast? = some row) {other : Row}
    (hother : other ∈ table) (howner : other.portfolio = portfolio) :
    other.letter ≤ row.letter := by
  obtain ⟨front, hrows⟩ := List.getLast?_eq_some_iff.mp hlast
  have hmem : other ∈ front ++ [row] := hrows ▸ mem_ofPortfolio.mpr ⟨hother, howner⟩
  have hordered : (front ++ [row]).Pairwise fun a b => a.before b = true :=
    hrows ▸ h.ordered.filter _
  have hrow : row.portfolio = portfolio :=
    (mem_ofPortfolio.mp (hrows ▸ List.mem_append_right front (List.mem_singleton_self row))).2
  rcases List.mem_append.mp hmem with hmem | hmem
  · have hbefore := (List.pairwise_append.mp hordered).2.2 other hmem row (by simp)
    rcases Row.before_iff.mp hbefore with hlt | ⟨-, hlt⟩
    · omega
    · exact Std.le_of_lt hlt
  · obtain rfl := List.mem_singleton.mp hmem
    exact Std.le_refl _

/-! ## Statements -/

/-- A row that is placed joins the rows of the table. -/
theorem mem_place {other : Row} : other ∈ place row table ↔ other = row ∨ other ∈ table := by
  obtain ⟨front, back, rfl, hplace, -, -⟩ := exists_place row table
  rw [hplace, List.mem_append, List.mem_cons, List.mem_append]
  tauto

/-- Inserting a row writes it. -/
theorem Admitted.wrote_place (h : table.Admitted) (hchecked : row.checked = true)
    (hnew : ∀ other ∈ table, other.hasKey row.portfolio row.letter = false) :
    table.Wrote (place row table) [row] := by
  have hordered : (place row table).Pairwise fun a b => a.before b = true :=
    pairwise_place Row.before_trans h.ordered
      (fun other hother hbefore => Row.before_of_not_before hbefore (hnew other hother))
      (fun _ _ hbefore => hbefore)
  refine ⟨⟨fun other hother => ?_, hordered⟩, fun other => ?_⟩
  · rcases mem_place.mp hother with rfl | hother
    · exact hchecked
    · exact h.checked other hother
  · rw [mem_place, List.mem_singleton]
    constructor
    · rintro (hother | hother)
      · exact .inl hother
      · exact .inr ⟨hother, by simpa using hnew other hother⟩
    · rintro (hother | ⟨hother, -⟩)
      · exact .inl hother
      · exact .inr hother

/-- Updating the index of a row writes the row with that index. -/
theorem Admitted.wrote_withIndex (h : table.Admitted) (hrow : row ∈ table) {index : Int}
    (hindex : 1 ≤ index) :
    table.Wrote (table.withIndex row.portfolio row.letter index) [{ row with index }] := by
  have hupdated : ∀ other : Row, other.hasKey row.portfolio row.letter = true →
      { other with index } = { row with index } := by
    intro other hkey
    obtain ⟨hportfolio, hletter⟩ := Row.hasKey_iff.mp hkey
    simp [hportfolio, hletter]
  have hself : row.hasKey row.portfolio row.letter = true := Row.hasKey_iff.mpr ⟨rfl, rfl⟩
  have hmem : ∀ other, other ∈ table.withIndex row.portfolio row.letter index ↔
      other = { row with index } ∨
        (other ∈ table ∧ other.hasKey row.portfolio row.letter = false) := by
    intro other
    unfold withIndex
    rw [List.mem_map]
    constructor
    · rintro ⟨old, hold, rfl⟩
      split_ifs with hkey
      · exact .inl (hupdated old hkey)
      · exact .inr ⟨hold, by simpa using hkey⟩
    · rintro (rfl | ⟨hother, hkey⟩)
      · exact ⟨row, hrow, if_pos hself⟩
      · exact ⟨other, hother, if_neg (by simp [hkey])⟩
  refine ⟨⟨fun other hother => ?_, ?_⟩, fun other => by simpa using hmem other⟩
  · rcases (hmem other).mp hother with rfl | ⟨hother, -⟩
    · have hchecked := h.checked row hrow
      unfold Row.checked at hchecked ⊢
      simp_all
    · exact h.checked other hother
  · -- An update does not touch keys, and keys are all that the order looks at.
    unfold withIndex
    rw [List.pairwise_map]
    refine h.ordered.imp fun {a b} hab => ?_
    split_ifs <;> exact hab

/-- Rows with other keys are written after each other. -/
theorem Wrote.trans {middle after : Table} {rest : List Row} (h : table.Wrote middle [row])
    (h' : middle.Wrote after rest)
    (hne : ∀ new ∈ rest, row.hasKey new.portfolio new.letter = false) :
    table.Wrote after (row :: rest) := by
  refine ⟨h'.admitted, fun other => ?_⟩
  have hmiddle : other ∈ middle ↔ other = row ∨
      (other ∈ table ∧ other.hasKey row.portfolio row.letter = false) := by
    simpa using h.mem_iff other
  rw [h'.mem_iff, hmiddle, List.mem_cons, List.forall_mem_cons]
  constructor
  · rintro (hother | ⟨rfl | ⟨hother, hkey⟩, hkeys⟩)
    · exact .inl (.inr hother)
    · exact .inl (.inl rfl)
    · exact .inr ⟨hother, hkey, hkeys⟩
  · rintro ((rfl | hother) | ⟨hother, hkey, hkeys⟩)
    · exact .inr ⟨.inl rfl, hne⟩
    · exact .inl hother
    · exact .inr ⟨.inr ⟨hother, hkey⟩, hkeys⟩

end Table

end ReferenceMint.Store
