import ReferenceMint.Text.Blank

/-!
# Messages and their details

A message that says what failed may go on with a detail: the words of the component that reported
the failure, after a colon and a space. The detail is for a reader; a comparison of messages leaves
it out.
-/

namespace ReferenceMint.Text

/-- Cuts a text in front of the first colon that a space follows. -/
def beforeDetail : List Char → List Char
  | ':' :: ' ' :: _ => []
  | c :: cs => c :: beforeDetail cs
  | [] => []

/-- The characters that start with the words of failure, and what is in front of them. -/
def fromFailure : List Char → Option (List Char × List Char)
  | [] => none
  | c :: cs =>
    if "failed to ".toList.isPrefixOf (c :: cs) then some ([], c :: cs)
    else (fromFailure cs).map fun (front, rest) => (c :: front, rest)

/-- A message without its detail: what follows the first colon behind the words of failure is cut,
and a message without those words is complete. -/
def withoutDetail (message : String) : String :=
  match fromFailure message.toList with
  | some (front, rest) => String.ofList (front ++ beforeDetail rest)
  | none => message

end ReferenceMint.Text
