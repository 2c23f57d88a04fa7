import ReferenceMint.Cursor
import ReferenceMint.Registry

/-!
# Buckets

What is stored of a portfolio is a bucket for each letter that came into use. A bucket has issued
the sequences below its index. The bucket with the highest letter is the active one, and it holds
the cursor of the portfolio.
-/

namespace ReferenceMint

/-- A stored bucket. -/
structure Bucket where
  /-- The portfolio it belongs to. -/
  portfolio : PortfolioCode
  letter : Letter
  /-- The next sequence. -/
  index : UInt32
deriving DecidableEq

namespace Bucket

/-- The cursor that a bucket holds; one with the index zero holds none. -/
def cursor (b : Bucket) : Except Failure Cursor := Cursor.ofIndex b.letter b.index

/-- Whether the bucket has issued the sequence. -/
def covers (b : Bucket) (sequence : UInt32) : Bool := 1 ≤ sequence && sequence < b.index

/-- Whether one of the buckets has issued the sequence under the letter. -/
def issued (buckets : List Bucket) (letter : Letter) (sequence : UInt32) : Bool :=
  buckets.any fun b => b.letter = letter && b.covers sequence

/-- The bucket with the highest letter, the last of them if there are several. -/
def active? : List Bucket → Option Bucket
  | [] => none
  | b :: bs =>
    match active? bs with
    | none => some b
    | some best => if b.letter ≤ best.letter then some best else some b

/-- The cursor of a portfolio with the given buckets; without a bucket there is none yet. -/
def activeCursor (buckets : List Bucket) : Except Failure (Option Cursor) :=
  match active? buckets with
  | none => .ok none
  | some b => b.cursor.map some

end Bucket

end ReferenceMint
