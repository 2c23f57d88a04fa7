import ReferenceMint.Reference

/-!
# Auditing references

Two checks on the references that a run has issued: none is issued twice, and the sequences under
each letter are the numbers from one on, each once.
-/

namespace ReferenceMint.Audit

/-- Whether no reference occurs twice. -/
def unique (references : List Reference) : Bool :=
  match references with
  | [] => true
  | r :: rest => !rest.contains r && unique rest

/-- The sequences under a letter, in ascending order. -/
def sequencesOf (letter : Letter) (triples : List Triple) : List Nat :=
  ((triples.filter fun t => t.letter = letter).map fun t => t.sequence.toNat).mergeSort

/-- Whether the sequences under every letter are the numbers from one on, each once. -/
def gaplessTriples (triples : List Triple) : Bool :=
  Letter.all.all fun letter =>
    let sequences := sequencesOf letter triples
    sequences = List.range' 1 sequences.length

/-- Whether the layout reads every reference and the sequences under every letter are the numbers
from one on, each once. -/
def gapless (layout : Layout) (references : List Reference) : Bool :=
  match references.mapM fun r => (layout.read r.text).toOption with
  | some triples => gaplessTriples triples
  | none => false

end ReferenceMint.Audit
