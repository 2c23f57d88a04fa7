import ReferenceMint.Letter

/-!
# Cursors and claims

The sequences of a portfolio are issued letter by letter. How far a portfolio has come is a cursor:
the letter in use and the next sequence under it. A claim takes the sequence at the cursor. The
claim that takes the last sequence of a letter moves on to the next letter; after `Z` there is none,
and the cursor stays behind the last sequence. A cursor above the capacity, which there is after the
capacity was lowered, is treated as if it stood at the start of the next letter.

| cursor                       | claimed    | indexes written           |
|------------------------------|------------|---------------------------|
| `(a, n)`, `n` below capacity | `(a, n)`   | `(a, n + 1)`              |
| `(a, c)`, `c` the capacity   | `(a, c)`   | `(a, c + 1)`, `(next, 1)` |
| `(Z, c)`, `c` the capacity   | `(Z, c)`   | `(Z, c + 1)`              |
| `(Z, n)`, `n` above capacity | nothing    | none                      |
-/

namespace ReferenceMint

/-- How far a portfolio has come. -/
structure Cursor where
  /-- The letter in use. -/
  letter : Letter
  /-- The next sequence. -/
  index : UInt32
deriving DecidableEq

/-- What a claim does to the letter it was taken from. -/
inductive ClaimEffect where
  /-- The letter stays in use. -/
  | stays
  /-- The letter is full, and `next` comes into use. -/
  | opens (next : Letter)
  /-- The letter is full, and it was the last one. -/
  | fillsLast
deriving DecidableEq

/-- A sequence that is claimed. -/
structure Claim where
  /-- The letter it is taken from. -/
  letter : Letter
  sequence : UInt32
  /-- What the claim does to the letter. -/
  effect : ClaimEffect
deriving DecidableEq

/-- The number after `n`; the highest number is followed by itself. -/
def successor (n : UInt32) : UInt32 := if n < UInt32.ofNat (Numeral.highest 2 32) then n + 1 else n

namespace Claim

/-- The claim of a sequence that the capacity admits. -/
def take (letter : Letter) (sequence capacity : UInt32) : Claim :=
  ⟨letter, sequence,
    if sequence < capacity then .stays
    else match letter.next? with
      | some next => .opens next
      | none => .fillsLast⟩

/-- The letter that the claim brings into use. -/
def opened (c : Claim) : Option Letter :=
  match c.effect with
  | .opens next => some next
  | _ => none

/-- The index of each letter that the claim changes, with the claimed letter first. -/
def writes (c : Claim) : List (Letter × UInt32) :=
  (c.letter, successor c.sequence) :: (c.opened.map fun next => (next, 1)).toList

/-- The cursor after the claim. -/
def after (c : Claim) : Cursor :=
  match c.opened with
  | some next => ⟨next, 1⟩
  | none => ⟨c.letter, successor c.sequence⟩

end Claim

namespace Cursor

/-- The cursor of a portfolio that has issued nothing. -/
def start : Cursor := ⟨.first, 1⟩

/-- The cursor with the given letter and index; sequences start at one. -/
def ofIndex (letter : Letter) (index : UInt32) : Except Failure Cursor :=
  if index = 0 then
    .error (.input ("bucket " ++ letter.text ++ " has next_index 0; indexes start at 1"))
  else .ok ⟨letter, index⟩

/-- The letter and the index with an at sign between them. -/
def text (s : Cursor) : String := s.letter.text ++ "@" ++ Numeral.text s.index.toNat

/-- Whether the cursor is behind every sequence that the capacity admits. -/
def isPast (s : Cursor) (capacity : UInt32) : Bool := capacity < s.index

/-- The claim at the cursor, unless the space is exhausted. A letter has at least one sequence,
whatever the capacity. -/
def claim (s : Cursor) (capacity : UInt32) : Option Claim :=
  let capacity := max capacity 1
  if s.index ≤ capacity then some (.take s.letter s.index capacity)
  else s.letter.next?.map fun next => .take next 1 capacity

/-- Up to `steps` claims, each at the cursor after the one before, and the cursor after the last. -/
def walk (capacity : UInt32) : (steps : Nat) → Cursor → List Claim × Cursor
  | 0, s => ([], s)
  | steps + 1, s =>
    match s.claim capacity with
    | none => ([], s)
    | some c =>
      let (claims, last) := walk capacity steps c.after
      (c :: claims, last)

end Cursor

end ReferenceMint
