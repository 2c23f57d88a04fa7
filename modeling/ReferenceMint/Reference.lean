import ReferenceMint.Bucket

/-!
# References

A reference is written as the portfolio code without leading zeros, the letter, and the sequence
with zeros in front up to the width of the layout. The reader accepts exactly this form, so a triple
has one written form and a text stands for at most one triple.
-/

namespace ReferenceMint

/-- What a reference stands for. -/
structure Triple where
  /-- The portfolio that issued it. -/
  portfolio : PortfolioCode
  letter : Letter
  /-- The sequence under the letter, from one. -/
  sequence : UInt32
deriving DecidableEq

/-- Why a text is no reference, or a triple has none. -/
inductive LayoutError where
  /-- The width is not between one and nine. -/
  | width (width : Nat)
  /-- The text does not start with a digit. -/
  | noCode (input : String)
  /-- The portfolio code starts with zero or is too large. -/
  | badCode (input : String)
  /-- No upper case letter follows the portfolio code. -/
  | noLetter (input : String)
  /-- What follows the letter is not `width` digits. -/
  | digits (input : String) (width : Nat)
  /-- The sequence is zero. -/
  | zero (input : String)
  /-- The sequence has more than `width` digits. -/
  | overflow (sequence : UInt32) (width : Nat)
deriving DecidableEq

namespace LayoutError

/-- The message of a layout error. -/
def message : LayoutError → String
  | .width w => "sequence width " ++ Numeral.text w ++ " is outside 1..=9"
  | .noCode input =>
    "client reference " ++ Text.quoted input ++ " must start with a portfolio code"
  | .badCode input =>
    "client reference " ++ Text.quoted input ++ " has an invalid portfolio code"
  | .noLetter input =>
    "client reference " ++ Text.quoted input ++
      " must have a single A-Z bucket letter after the portfolio code"
  | .digits input w =>
    "client reference " ++ Text.quoted input ++ " must end with exactly " ++ Numeral.text w ++
      " digits"
  | .zero input => "client reference " ++ Text.quoted input ++ " has sequence 0"
  | .overflow sequence w =>
    "sequence " ++ Numeral.text sequence.toNat ++ " does not fit in " ++ Numeral.text w ++
      " digits"

/-- The label of a layout error. -/
def label : LayoutError → String
  | .width _ => "invalid_width"
  | .noCode _ => "missing_portfolio"
  | .badCode _ => "invalid_portfolio"
  | .noLetter _ => "missing_alpha"
  | .digits .. => "sequence_width"
  | .zero _ => "zero_sequence"
  | .overflow .. => "sequence_overflow"

end LayoutError

/-- A reference that a layout has written or read. -/
structure Reference where
  text : String
deriving DecidableEq

/-- The bytes of the text. -/
def Reference.bytes (r : Reference) : List UInt8 := r.text.toUTF8.data.toList

/-- References are in the order of their bytes. -/
instance : Ord Reference := ⟨fun r q => compare r.bytes q.bytes⟩

/-- How references are written: the number of digits of a sequence. -/
structure Layout where
  /-- The number of digits. -/
  width : Nat
  /-- There is at least one digit. -/
  width_pos : 1 ≤ width
  /-- Nine digits fit into thirty-two bits. -/
  width_le : width ≤ 9
deriving DecidableEq

namespace Layout

/-- The width in use unless another is configured. -/
def standardWidth : UInt8 := 3

/-- The layout of the given width. -/
def ofWidth (width : UInt8) : Except LayoutError Layout :=
  if h : 1 ≤ width.toNat ∧ width.toNat ≤ 9 then .ok ⟨width.toNat, h.1, h.2⟩
  else .error (.width width.toNat)

/-- The largest sequence that the layout can write. -/
def largest (l : Layout) : UInt32 := UInt32.ofNat (Numeral.highest 10 l.width)

/-- The characters of the reference for a triple. -/
def chars (l : Layout) (t : Triple) : List Char :=
  Numeral.digits t.portfolio.number.toNat ++
    t.letter.char :: Numeral.padded l.width t.sequence.toNat

/-- Writes a reference. The sequence is at least one and has no more digits than the layout. -/
def write (l : Layout) (t : Triple) : Except LayoutError Reference :=
  if t.sequence = 0 then .error (.zero (t.portfolio.text ++ t.letter.text ++ "0"))
  else if l.largest < t.sequence then .error (.overflow t.sequence l.width)
  else .ok ⟨String.ofList (l.chars t)⟩

/-- Reads a reference. The leftmost part that is wrong decides the error. -/
def read (l : Layout) (input : String) : Except LayoutError Triple :=
  let cs := input.toList
  let code := cs.takeWhile Char.isDigit
  if code.isEmpty then .error (.noCode input)
  else if code.head? = some '0' ∨ Numeral.highest 2 16 < Numeral.value code then
    .error (.badCode input)
  else match cs.drop code.length with
    | [] => .error (.noLetter input)
    | c :: digits =>
      match Letter.ofChar? c with
      | none => .error (.noLetter input)
      | some letter =>
        if digits.length ≠ l.width ∨ ¬ digits.all Char.isDigit then .error (.digits input l.width)
        else if Numeral.value digits = 0 then .error (.zero input)
        else .ok ⟨⟨UInt16.ofNat (Numeral.value code)⟩, letter, UInt32.ofNat (Numeral.value digits)⟩

/-- Reads a reference and keeps its text. -/
def recognize (l : Layout) (input : String) : Except LayoutError Reference :=
  (l.read input).map fun _ => ⟨input⟩

/-- The layouts by ascending width. -/
def all : List Layout :=
  (List.range' 1 9).filterMap fun width => (ofWidth (UInt8.ofNat width)).toOption

end Layout

/-- The reference that a text is in the first layout that reads it. -/
def Reference.ofText? (text : String) : Option Reference :=
  Layout.all.findSome? fun l => (l.recognize text).toOption

end ReferenceMint
