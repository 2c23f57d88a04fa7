import ReferenceMint.Failure
import ReferenceMint.Text.Quoted

/-!
# Bucket letters

The buckets of a portfolio are named by the letters from `A` to `Z`, and are used in that order.
-/

namespace ReferenceMint

/-- A bucket letter. -/
structure Letter where
  /-- Its place in the alphabet, from zero for `A`. -/
  position : Fin 26
deriving DecidableEq

namespace Letter

instance : LE Letter := ⟨fun a b => a.position ≤ b.position⟩

instance : LT Letter := ⟨fun a b => a.position < b.position⟩

instance (a b : Letter) : Decidable (a ≤ b) := inferInstanceAs (Decidable (a.position ≤ b.position))

instance (a b : Letter) : Decidable (a < b) := inferInstanceAs (Decidable (a.position < b.position))

/-- The letter of the first bucket, `A`. -/
def first : Letter := ⟨0⟩

/-- The letter of the last bucket, `Z`. -/
def last : Letter := ⟨25⟩

/-- The letter as a character. -/
def char (a : Letter) : Char := Char.ofNat ('A'.toNat + a.position)

/-- The letter as a text. -/
def text (a : Letter) : String := String.singleton a.char

/-- The letter that a character is, if it is an upper case letter of the alphabet. -/
def ofChar? (c : Char) : Option Letter :=
  if h : 'A'.toNat ≤ c.toNat ∧ c.toNat ≤ 'Z'.toNat then
    some ⟨⟨c.toNat - 'A'.toNat, by
      have : 'Z'.toNat = 'A'.toNat + 25 := rfl
      omega⟩⟩
  else none

/-- The letter that a character is, or what is wrong with the character. -/
def ofChar (c : Char) : Except Failure Letter :=
  match ofChar? c with
  | some letter => .ok letter
  | none => .error (.input ("bucket letter must be A-Z, got " ++ Text.quotedChar c))

/-- The letter after this one; there is none after `Z`. -/
def next? (a : Letter) : Option Letter :=
  if h : a.position.val + 1 < 26 then some ⟨⟨a.position.val + 1, h⟩⟩ else none

/-- The letters in order. -/
def all : List Letter := (List.finRange 26).map Letter.mk

end Letter

end ReferenceMint
