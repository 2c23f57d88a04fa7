import ReferenceMint.Store.Claiming

/-!
# The table of buckets

A database keeps the buckets of all portfolios in one table, with a row for each portfolio and
letter. The table guards itself: a row holds a positive portfolio, one of the letters and an index
of at least one, an index never goes down, and no row is ever deleted. Other programs may have
written to the database without these guards, so a row can hold any integers and any text.

The type of a column does not bind the values in it. So an index could also be a number with a
fraction, or a text, and the guards would let it pass. Rows with such values are left out here.
-/

namespace ReferenceMint.Store

/-- A row of the table. -/
structure Row where
  /-- The code of the portfolio. -/
  portfolio : Int
  letter : String
  /-- The next sequence. -/
  index : Int
deriving DecidableEq

/-- Why a statement is rejected. -/
inductive Rejection where
  /-- A value breaks a rule for its column. -/
  | check
  /-- The table has a row for the portfolio and the letter. -/
  | primaryKey
  /-- A guard stopped the statement, in its own words. -/
  | trigger (message : String)
deriving DecidableEq

/-- The words of a rejection. -/
def Rejection.message : Rejection → String
  | .check => "CHECK constraint failed"
  | .primaryKey => "UNIQUE constraint failed"
  | .trigger message => message

namespace Row

/-- Whether the row has the given key. -/
def hasKey (row : Row) (portfolio : Int) (letter : String) : Bool :=
  row.portfolio = portfolio && row.letter = letter

/-- The order of rows: by portfolio and then by letter. -/
def before (a b : Row) : Bool :=
  a.portfolio < b.portfolio || (a.portfolio = b.portfolio && a.letter < b.letter)

/-- Whether the text is one character and lies between the first letter and the last. The length of
a text counts up to a null character. -/
def isLetter (s : String) : Bool :=
  (s.toList.takeWhile (· ≠ '\x00')).length = 1 && "A" ≤ s && s ≤ "Z"

/-- Whether the values keep the rules for their columns. -/
def checked (row : Row) : Bool := 0 < row.portfolio && isLetter row.letter && 1 ≤ row.index

end Row

/-- The rows of a table, ordered by portfolio and letter. -/
abbrev Table := List Row

namespace Table

/-- The rows of a portfolio, by letter. -/
def ofPortfolio (table : Table) (portfolio : Int) : List Row :=
  table.filter fun row => row.portfolio = portfolio

/-- The index in the row with the given key. -/
def index? (table : Table) (portfolio : Int) (letter : String) : Option Int :=
  (table.find? fun row => row.hasKey portfolio letter).map Row.index

/-- The table with a row at its place. -/
def place (row : Row) : Table → Table
  | [] => [row]
  | other :: rest => if row.before other then row :: other :: rest else other :: place row rest

/-- Inserts a row; `guarded` says whether the rules for columns apply. -/
def insert (table : Table) (row : Row) (guarded : Bool) : Except Rejection Table :=
  -- The columns are looked at before the key.
  if guarded && !row.checked then .error .check
  else if table.any fun other => other.hasKey row.portfolio row.letter then .error .primaryKey
  else .ok (place row table)

/-- The words of the guard on indexes. -/
def decreaseMessage : String := "next_index must never decrease"

/-- The words of the guard on rows. -/
def deleteMessage : String := "reference buckets are never deleted"

/-- The row with the given key, if the index in it is the one that is wanted. -/
def wanted? (table : Table) (portfolio : Int) (letter : String) (wanted : Option Int) :
    Option Row :=
  table.find? fun row => row.hasKey portfolio letter &&
    match wanted with
    | some index => row.index = index
    | none => true

/-- Sets the index in the row with the given key, and says how many rows that were. The row may have
to hold a `wanted` index before; `guarded` says whether the rule for the column applies. -/
def update (table : Table) (portfolio : Int) (letter : String) (wanted : Option Int)
    (index : Int) (guarded : Bool) : Except Rejection (Nat × Table) :=
  match table.wanted? portfolio letter wanted with
  | none => .ok (0, table)
  | some row =>
    -- The guard runs before the update, and so before the rule for the column.
    if index < row.index then .error (.trigger decreaseMessage)
    else if guarded && index < 1 then .error .check
    else .ok (1, table.map fun row =>
      if row.hasKey portfolio letter then { row with index } else row)

/-- Deletes the rows of a portfolio, and says how many rows that were: none, as a row that would be
deleted stops the statement. -/
def delete (table : Table) (portfolio : Int) : Except Rejection Nat :=
  if (table.ofPortfolio portfolio).isEmpty then .ok 0 else .error (.trigger deleteMessage)

end Table

end ReferenceMint.Store
