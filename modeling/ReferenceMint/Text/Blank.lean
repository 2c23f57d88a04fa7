/-!
# White space and lines

Trimming removes white space at both ends of a text, where white space is the Unicode property
`White_Space`: twenty-five characters, among them the no-break space and the ideographic space,
and without the zero width space. A line ends at a line feed, and a carriage return right before
that line feed belongs to the end of the line.
-/

namespace ReferenceMint.Text

/-- A character with the Unicode property `White_Space`. -/
def isBlank (c : Char) : Bool :=
  let n := c.toNat
  (9 ≤ n && n ≤ 13) || n == 0x20 || n == 0x85 || n == 0xA0 || n == 0x1680 ||
    (0x2000 ≤ n && n ≤ 0x200A) || n == 0x2028 || n == 0x2029 || n == 0x202F || n == 0x205F ||
    n == 0x3000

/-- The characters without the white space they start with. -/
def trimStart (cs : List Char) : List Char := cs.dropWhile isBlank

/-- The characters without the white space they end with. -/
def trimEnd (cs : List Char) : List Char := (cs.reverse.dropWhile isBlank).reverse

/-- The characters without white space at either end. -/
def trim (cs : List Char) : List Char := trimEnd (trimStart cs)

/-- A text is blank when it holds nothing but white space. -/
def blank (s : String) : Bool := s.toList.all isBlank

/-- Cuts at the first character equal to `sep`, which belongs to neither part; `none` when there
is no such character. -/
def cutAt (sep : Char) : List Char → Option (List Char × List Char)
  | [] => none
  | c :: cs => if c = sep then some ([], cs) else (cutAt sep cs).map fun (l, r) => (c :: l, r)

/-- The pieces between the characters or bytes equal to `sep`; there is one piece more than
separators. -/
def splitAt {α : Type} [DecidableEq α] (sep : α) : List α → List (List α)
  | [] => [[]]
  | c :: cs =>
    if c = sep then [] :: splitAt sep cs
    else match splitAt sep cs with
      | [] => [[c]]
      | piece :: pieces => (c :: piece) :: pieces

/-- Drops the carriage return that a line may end with. -/
def dropReturn (line : List Char) : List Char :=
  match line.reverse with
  | '\r' :: rest => rest.reverse
  | _ => line

/-- The lines of a text. A carriage return is part of a line end only right before a line feed, and
a line feed that ends the text opens no further line. -/
def lines (cs : List Char) : List (List Char) :=
  match (splitAt '\n' cs).reverse with
  | [] => []
  | rest :: complete =>
    (complete.map dropReturn).reverse ++ (if rest.isEmpty then [] else [rest])

end ReferenceMint.Text
