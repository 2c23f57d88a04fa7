import Mathlib.Data.List.Basic
import ReferenceMint.Store.Table

/-!
# Statements act on the rows of one portfolio

The rows of a table are ordered by portfolio (`Table.Grouped`), and a row that is inserted comes
into this order (`Table.exists_place`). So what a statement does can be said portfolio by portfolio.
A row behind all others of its portfolio is inserted at the end of them (`Table.insert_of_last`), an
update changes the index in the row with the key (`Table.update_of_index?`), and neither of them
changes the rows of other portfolios.
-/

namespace ReferenceMint.Store

/-- Rows are ordered by portfolio and then by letter. -/
theorem Row.before_iff {a b : Row} : a.before b = true ↔
    a.portfolio < b.portfolio ∨ (a.portfolio = b.portfolio ∧ a.letter < b.letter) := by
  simp [Row.before]

/-- A row has its own key and no other one. -/
theorem Row.hasKey_iff {row : Row} {portfolio : Int} {letter : String} :
    row.hasKey portfolio letter = true ↔ row.portfolio = portfolio ∧ row.letter = letter := by
  simp [Row.hasKey]

/-- A row does not have a key of another portfolio or letter. -/
theorem Row.not_hasKey {row : Row} {portfolio : Int} {letter : String}
    (h : row.portfolio = portfolio → row.letter ≠ letter) :
    row.hasKey portfolio letter = false := by
  rw [Bool.eq_false_iff]
  intro hkey
  obtain ⟨hportfolio, hletter⟩ := Row.hasKey_iff.mp hkey
  exact h hportfolio hletter

namespace Table

/-- The rows are ordered by portfolio. -/
def Grouped (table : Table) : Prop := table.Pairwise fun a b => a.portfolio ≤ b.portfolio

/-- The table with another index in the row with the given key. -/
def withIndex (table : Table) (portfolio : Int) (letter : String) (index : Int) : Table :=
  table.map fun row => if row.hasKey portfolio letter then { row with index } else row

variable {table : Table} {row : Row} {portfolio : Int} {letter : String}

/-- A row belongs to the rows of its portfolio. -/
theorem mem_ofPortfolio : row ∈ table.ofPortfolio portfolio ↔
    row ∈ table ∧ row.portfolio = portfolio := by
  simp [ofPortfolio]

/-- The row with a key is found among those of its portfolio. -/
theorem index?_eq (table : Table) (portfolio : Int) (letter : String) :
    table.index? portfolio letter =
      ((table.ofPortfolio portfolio).find? fun row => row.letter = letter).map Row.index := by
  unfold index? ofPortfolio
  rw [List.find?_filter]
  congr 2
  funext row
  simp [Row.hasKey]

/-! ## Inserting -/

/-- A row is placed behind rows that it is not before, and in front of one that it is before. -/
theorem exists_place (row : Row) (table : Table) : ∃ front back, table = front ++ back ∧
    place row table = front ++ row :: back ∧ (∀ other ∈ front, row.before other = false) ∧
    ∀ other ∈ back.head?, row.before other = true := by
  induction table with
  | nil => exact ⟨[], [], rfl, rfl, by simp, by simp⟩
  | cons other rest ih =>
    cases hbefore : row.before other with
    | true => exact ⟨[], other :: rest, rfl, by simp [place, hbefore], by simp, by simp [hbefore]⟩
    | false =>
      obtain ⟨front, back, hrest, hplace, hfront, hback⟩ := ih
      refine ⟨other :: front, back, by rw [hrest]; rfl, ?_, ?_, hback⟩
      · simp [place, hbefore, hplace]
      · intro b hb
        rcases List.mem_cons.mp hb with rfl | hb
        · exact hbefore
        · exact hfront b hb

/-- A table keeps an order of its rows when a row is placed, if the order has the new row where it
is placed. -/
theorem pairwise_place {r : Row → Row → Prop} (htrans : ∀ {a b c}, r a b → r b c → r a c)
    (h : table.Pairwise r) (hfront : ∀ other ∈ table, row.before other = false → r other row)
    (hback : ∀ other ∈ table, row.before other = true → r row other) :
    (place row table).Pairwise r := by
  obtain ⟨front, back, rfl, hplace, hbefore, hfirst⟩ := exists_place row table
  obtain ⟨horder, hrest, hcross⟩ := List.pairwise_append.mp h
  have hbehind : ∀ other ∈ back, r row other := by
    cases back with
    | nil => simp
    | cons first back =>
      -- The first row behind decides, because the ones after it are ordered.
      have hrow : r row first := hback first (by simp) (hfirst first (by simp))
      intro other hother
      rcases List.mem_cons.mp hother with rfl | hother
      · exact hrow
      · exact htrans hrow ((List.pairwise_cons.mp hrest).1 other hother)
  rw [hplace, List.pairwise_append]
  refine ⟨horder, List.pairwise_cons.mpr ⟨hbehind, hrest⟩, fun a ha b hb => ?_⟩
  rcases List.mem_cons.mp hb with rfl | hb
  · exact hfront a (List.mem_append_left _ ha) (hbefore a ha)
  · exact hcross a ha b hb

/-- A table keeps its order when a row is placed. -/
theorem grouped_place (h : table.Grouped) (row : Row) : (place row table).Grouped := by
  refine pairwise_place Int.le_trans h (fun other _ hbefore => ?_) (fun other _ hbefore => ?_)
  · have hnot : ¬ row.before other = true := by simp [hbefore]
    rw [Row.before_iff] at hnot
    omega
  · rcases Row.before_iff.mp hbefore with hlt | ⟨heq, -⟩ <;> omega

/-- Placing a row does not change the rows of other portfolios. -/
theorem ofPortfolio_place_ne (h : portfolio ≠ row.portfolio) (table : Table) :
    (place row table).ofPortfolio portfolio = table.ofPortfolio portfolio := by
  obtain ⟨front, back, rfl, hplace, -, -⟩ := exists_place row table
  unfold ofPortfolio
  rw [hplace, List.filter_append, List.filter_append, List.filter_cons]
  simp [Ne.symm h]

/-- A row behind all of its portfolio becomes the last of them. -/
theorem ofPortfolio_place_self (h : table.Grouped)
    (hlast : ∀ other ∈ table.ofPortfolio row.portfolio, other.letter < row.letter) :
    (place row table).ofPortfolio row.portfolio = table.ofPortfolio row.portfolio ++ [row] := by
  obtain ⟨front, back, rfl, hplace, -, hback⟩ := exists_place row table
  -- The row is not before a row of its portfolio, so all rows behind it are of later ones.
  have hnone : ∀ other ∈ back, other.portfolio ≠ row.portfolio := by
    cases back with
    | nil => simp
    | cons first back =>
      have hrest := (List.pairwise_append.mp h).2.1
      have hfirst : row.portfolio < first.portfolio := by
        rcases Row.before_iff.mp (hback first (by simp)) with hlt | ⟨heq, hletter⟩
        · exact hlt
        · have hafter := hlast first (mem_ofPortfolio.mpr ⟨by simp, heq.symm⟩)
          exact absurd hletter (String.not_lt.mpr (Std.le_of_lt hafter))
      intro other hother
      rcases List.mem_cons.mp hother with rfl | hother
      · omega
      · have hle := (List.pairwise_cons.mp hrest).1 other hother
        omega
  have hempty : back.filter (fun other => other.portfolio = row.portfolio) = [] := by
    rw [List.filter_eq_nil_iff]
    simpa using hnone
  unfold ofPortfolio
  rw [hplace, List.filter_append, List.filter_append, List.filter_cons, hempty]
  simp

/-- A row with a new key that keeps the rules for its columns is inserted. -/
theorem insert_of_new (hchecked : row.checked = true)
    (hnew : ∀ other ∈ table, other.hasKey row.portfolio row.letter = false) :
    table.insert row true = .ok (place row table) := by
  have hkey : (table.any fun other => other.hasKey row.portfolio row.letter) = false := by
    rw [List.any_eq_false]
    intro other hother
    simp [hnew other hother]
  unfold Table.insert
  simp [hchecked, hkey]

/-- A row that keeps the rules for its columns and is behind all of its portfolio is inserted. -/
theorem insert_of_last (hchecked : row.checked = true)
    (hlast : ∀ other ∈ table.ofPortfolio row.portfolio, other.letter < row.letter) :
    table.insert row true = .ok (place row table) := by
  refine insert_of_new hchecked fun other hother => Row.not_hasKey fun hportfolio hletter => ?_
  have hlt := hlast other (mem_ofPortfolio.mpr ⟨hother, hportfolio⟩)
  rw [hletter] at hlt
  exact Std.lt_irrefl hlt

/-- A row that breaks a rule for its columns is not inserted. -/
theorem insert_of_not_checked (h : row.checked = false) :
    table.insert row true = .error .check := by
  unfold Table.insert
  simp [h]

/-! ## Updating -/

/-- The row with a key holds the index that was read from it. -/
theorem wanted?_of_index? {stored : Int} (h : table.index? portfolio letter = some stored) :
    ∃ row, table.wanted? portfolio letter (some stored) = some row ∧ row.index = stored := by
  -- The first row with the key is also the first with the key and its own index.
  obtain ⟨row, hfind, rfl⟩ := Option.map_eq_some_iff.mp h
  obtain ⟨hkey, front, back, rfl, hfront⟩ := List.find?_eq_some_iff_append.mp hfind
  refine ⟨row, ?_, rfl⟩
  unfold wanted?
  rw [List.find?_eq_some_iff_append]
  refine ⟨by simp [hkey], front, back, rfl, fun other hother => ?_⟩
  have := hfront other hother
  simp at this
  simp [this]

/-- An index that was read is raised. -/
theorem update_of_index? {stored index : Int} (h : table.index? portfolio letter = some stored)
    (hle : stored ≤ index) (hone : 1 ≤ index) :
    table.update portfolio letter (some stored) index true =
      .ok (1, table.withIndex portfolio letter index) := by
  obtain ⟨row, hwanted, rfl⟩ := wanted?_of_index? h
  have hkept : ¬ index < row.index := by omega
  have hchecked : ¬ index < 1 := by omega
  unfold update
  simp only [hwanted, hkept, hchecked, if_false, decide_false, Bool.and_false, Bool.false_eq_true]
  rfl

/-- An update changes the index in the row with the key. -/
theorem ofPortfolio_withIndex (table : Table) (portfolio : Int) (letter : String) (index : Int)
    (owner : Int) : (table.withIndex portfolio letter index).ofPortfolio owner =
      (table.ofPortfolio owner).map fun row =>
        if row.hasKey portfolio letter then { row with index } else row := by
  unfold withIndex ofPortfolio
  rw [List.filter_map]
  congr 2
  funext row
  simp only [Function.comp]
  split_ifs <;> rfl

/-- An update does not change the rows of other portfolios. -/
theorem ofPortfolio_withIndex_ne {owner : Int} (h : owner ≠ portfolio) (table : Table)
    (letter : String) (index : Int) :
    (table.withIndex portfolio letter index).ofPortfolio owner = table.ofPortfolio owner := by
  rw [ofPortfolio_withIndex]
  have hsame : ∀ row ∈ table.ofPortfolio owner,
      (if row.hasKey portfolio letter then { row with index } else row) = id row := by
    intro row hrow
    have howner := (mem_ofPortfolio.mp hrow).2
    rw [if_neg]
    · rfl
    · rw [Row.hasKey_iff, howner]
      exact fun hkey => h hkey.1
  rw [List.map_congr_left hsame, List.map_id]

/-- A table keeps its order when an index is changed. -/
theorem grouped_withIndex (h : table.Grouped) (portfolio : Int) (letter : String) (index : Int) :
    (table.withIndex portfolio letter index).Grouped := by
  unfold Grouped withIndex at *
  rw [List.pairwise_map]
  refine h.imp fun {a b} hab => ?_
  split_ifs <;> exact hab

end Table

end ReferenceMint.Store
