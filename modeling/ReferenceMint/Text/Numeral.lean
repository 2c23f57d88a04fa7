/-!
# Decimal numerals

Numbers are written in ASCII digits without leading zeros, or padded with zeros to a width. They
are read from left to right under a bound: the first character that is no digit, or the first
digit that takes the value past the bound, decides which error is reported.
-/

namespace ReferenceMint.Numeral

/-- The decimal digits of a number, most significant first, without leading zeros. -/
def digits (n : Nat) : List Char := Nat.toDigits 10 n

/-- The decimal digits of a number, with zeros in front up to `width` characters. -/
def padded (width n : Nat) : List Char := (digits n).leftpad width '0'

/-- The number as text. -/
def text (n : Nat) : String := String.ofList (digits n)

/-- An integer as text: a minus sign and the digits of its absolute value. -/
def integerText : Int → String
  | .ofNat n => text n
  | .negSucc n => String.ofList ('-' :: digits (n + 1))

/-- What a digit stands for. -/
def digitValue (c : Char) : Nat := c.toNat - '0'.toNat

/-- The number that a run of digits stands for, leading zeros included. -/
def value (cs : List Char) : Nat := Nat.ofDigitChars 10 cs 0

/-- The value of a hexadecimal digit. -/
def hexValue (c : Char) : Option Nat :=
  if c.isDigit then some (c.toNat - '0'.toNat)
  else if 'a' ≤ c && c ≤ 'f' then some (c.toNat - 'a'.toNat + 10)
  else if 'A' ≤ c && c ≤ 'F' then some (c.toNat - 'A'.toNat + 10)
  else none

/-- Why a text is no number of the wanted range. -/
inductive ReadError where
  /-- There is no character at all. -/
  | empty
  /-- A character that is no digit, or a sign with nothing behind it. -/
  | invalidDigit
  /-- The value is above the range. -/
  | tooLarge
  /-- The value is below the range. -/
  | tooSmall
deriving DecidableEq, Repr

/-- The wording of a reading error. -/
def ReadError.message : ReadError → String
  | .empty => "cannot parse integer from empty string"
  | .invalidDigit => "invalid digit found in string"
  | .tooLarge => "number too large to fit in target type"
  | .tooSmall => "number too small to fit in target type"

/-- Reads digits onto the value `acc` of those before them, never past `limit`. -/
def readDigits (limit : Nat) (pastLimit : ReadError) : Nat → List Char → Except ReadError Nat
  | acc, [] => .ok acc
  | acc, c :: cs =>
    if c.isDigit then
      let next := 10 * acc + digitValue c
      if limit < next then .error pastLimit else readDigits limit pastLimit next cs
    else .error .invalidDigit

/-- Reads a number up to `limit`: an optional plus sign and at least one digit. -/
def readNat (limit : Nat) : List Char → Except ReadError Nat
  | [] => .error .empty
  | ['+'] => .error .invalidDigit
  | '+' :: cs => readDigits limit .tooLarge 0 cs
  | cs => readDigits limit .tooLarge 0 cs

/-- Reads an integer from `-below` to `limit`: an optional sign and at least one digit. -/
def readInt (below limit : Nat) : List Char → Except ReadError Int
  | ['-'] => .error .invalidDigit
  | '-' :: cs => (readDigits below .tooSmall 0 cs).map fun n => -(n : Int)
  | cs => (readNat limit cs).map Int.ofNat

/-- The highest number of so many digits in a base. -/
def highest (base digits : Nat) : Nat := Nat.pow base digits - 1

/-- The bound of a signed 64-bit number, on either side of zero: the lowest is `-(limit64 + 1)`. -/
def limit64 : Nat := highest 2 63

/-- Reads a signed 64-bit number. -/
def readInt64 (cs : List Char) : Except ReadError Int := readInt (limit64 + 1) limit64 cs

end ReferenceMint.Numeral
