import ReferenceMint.Store.Claiming

/-!
# Rivals

A rival claims one sequence right before somebody else does, at the same capacity and at whatever
cursor there is then. A program with rivals meets one in front of each of its next claims, as long
as there are rivals left.
-/

namespace ReferenceMint.Store

/-- What a rival does in front of a claim: it reads the cursor and claims at it. How that ends
is of no concern to anybody else. -/
def rival (portfolio : PortfolioCode) (capacity : UInt32) : Program interface Unit :=
  .call (.active portfolio) fun
    | .error _ => .done ()
    | .ok active =>
      .call (.claim portfolio (active.getD .start) capacity) fun _ => .done ()

/-- A program with a number of rivals: its result comes with the number of rivals that are left. -/
def withRivals {α : Type} : Nat → Program interface α → Program interface (α × Nat)
  | rivals, .done a => .done (a, rivals)
  | rivals, .note entry rest => .note entry (withRivals rivals rest)
  | 0, .call c next => .call c fun reply => withRivals 0 (next reply)
  | rivals + 1, .call (.claim portfolio expected capacity) next =>
    (rival portfolio capacity).bind fun _ =>
      .call (.claim portfolio expected capacity) fun reply => withRivals rivals (next reply)
  | rivals + 1, .call c next => .call c fun reply => withRivals (rivals + 1) (next reply)

end ReferenceMint.Store
