import ReferenceMint.Text.Numeral

/-!
# Bytes of a text

Where a text names something outside of the program, its bytes count: those of its UTF-8 form. A
text may also write a byte as a percent sign and two hexadecimal digits. This is the only way to
write a byte that is no part of a character, or a character that means something where it stands.
-/

namespace ReferenceMint.Text

/-- The bytes of a text. -/
def bytes (s : String) : List UInt8 := s.toList.flatMap String.utf8EncodeChar

/-- The bytes of a text with percent signs, up to the first byte that is zero. A percent sign
without two hexadecimal digits behind it stands for itself. -/
def percentDecoded : List Char → List UInt8
  | '%' :: a :: b :: cs =>
    match Numeral.hexValue a, Numeral.hexValue b with
    | some 0, some 0 => []
    | some high, some low => UInt8.ofNat (16 * high + low) :: percentDecoded cs
    | _, _ => String.utf8EncodeChar '%' ++ percentDecoded (a :: b :: cs)
  | c :: cs => String.utf8EncodeChar c ++ percentDecoded cs
  | [] => []

end ReferenceMint.Text
