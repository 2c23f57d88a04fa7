import ReferenceMint.Program
import ReferenceMint.Reference

/-!
# Bucket stores

A bucket store keeps the buckets of every portfolio. Its one way to change them is a claim: the
caller says which cursor it expects, and the claim takes effect only if the portfolio still has that
cursor. Otherwise nothing is written, and the caller learns what the store saw, if it saw anything.
-/

namespace ReferenceMint.Store

/-- What became of a claim. -/
inductive ClaimReply where
  /-- The claim took effect. -/
  | claimed (portfolio : PortfolioCode) (claim : Claim)
  /-- Another claim came first. If the store saw no cursor, the caller has to read again. -/
  | conflict (observed : Option Cursor)
  /-- There is nothing left to claim. -/
  | exhausted (observed : Cursor)
deriving DecidableEq

/-- Whether the claim took effect. -/
def ClaimReply.isClaimed : ClaimReply → Bool
  | .claimed .. => true
  | _ => false

/-- The calls on a bucket store. -/
inductive Call where
  /-- What is the cursor of a portfolio? -/
  | active (portfolio : PortfolioCode)
  /-- Claim the next sequence at the capacity, if the cursor is the expected one. -/
  | claim (portfolio : PortfolioCode) (expected : Cursor) (capacity : UInt32)
  /-- What are the buckets of a portfolio? -/
  | buckets (portfolio : PortfolioCode)
deriving DecidableEq

/-- What answers a call. -/
def Reply : Call → Type
  | .active _ => Except Failure (Option Cursor)
  | .claim .. => Except Failure ClaimReply
  | .buckets _ => Except Failure (List Bucket)

/-- The interface of a bucket store. -/
abbrev interface : Interface := ⟨Call, Reply⟩

/-- Asks for the cursor of a portfolio. -/
def active (portfolio : PortfolioCode) : Program interface (Except Failure (Option Cursor)) :=
  .call (.active portfolio) .done

/-- Asks for the buckets of a portfolio. -/
def buckets (portfolio : PortfolioCode) : Program interface (Except Failure (List Bucket)) :=
  .call (.buckets portfolio) .done

/-- Claims the next sequence of a portfolio, if the cursor is the expected one. -/
def claim (portfolio : PortfolioCode) (expected : Cursor) (capacity : UInt32) :
    Program interface (Except Failure ClaimReply) :=
  .call (.claim portfolio expected capacity) .done

/-- Decides a claim against the cursor that a store holds: what to write, or why not to write. -/
def plan (current expected : Cursor) (capacity : UInt32) : Except ClaimReply Claim :=
  if current = expected then
    match current.claim capacity with
    | some claim => .ok claim
    | none => .error (.exhausted current)
  else .error (.conflict (some current))

/-- The triple that a claim takes for a portfolio. -/
def tripleOf (portfolio : PortfolioCode) (claim : Claim) : Triple :=
  ⟨portfolio, claim.letter, claim.sequence⟩

end ReferenceMint.Store
