import ReferenceMint.Failure
import ReferenceMint.Text.Blank

/-!
# Portfolios and their registry

A portfolio is known by a code, and the registry fixes the range of codes in use. It also knows the
names of the portfolios that were registered, listed by ascending code. A code is checked against
the range before anything is read or written for it.
-/

namespace ReferenceMint

/-- The code of a portfolio. -/
structure PortfolioCode where
  number : UInt16
deriving DecidableEq

/-- The code as a decimal numeral. -/
def PortfolioCode.text (code : PortfolioCode) : String := Numeral.text code.number.toNat

/-- A registered portfolio. -/
structure Portfolio where
  code : PortfolioCode
  name : String
deriving DecidableEq

/-- A range of portfolio codes with the portfolios registered in it. -/
structure Registry where
  /-- The lowest code. -/
  min : UInt16
  /-- The highest code. -/
  max : UInt16
  /-- The registered portfolios, by ascending code. -/
  portfolios : List Portfolio
  /-- No portfolio has the code zero. -/
  min_pos : 1 ≤ min
  /-- The range is not empty. -/
  min_le_max : min ≤ max

namespace Registry

/-- The lowest code of the range in use unless another is configured. -/
def standardMin : UInt16 := 1

/-- The highest code of the range in use unless another is configured. -/
def standardMax : UInt16 := 10

/-- The registry of the standard range, without registered portfolios. -/
def standard : Registry :=
  ⟨standardMin, standardMax, [], by decide, by decide⟩

/-- The registry of the range from `min` to `max`, without registered portfolios. -/
def ofRange (min max : UInt16) : Except Failure Registry :=
  if hmin : 1 ≤ min then
    if hmax : min ≤ max then .ok ⟨min, max, [], hmin, hmax⟩
    else .error (.input ("portfolio range is empty: " ++ Failure.rangeText min max))
  else .error (.input "portfolio codes must be positive (min >= 1)")

/-- Whether a code is in the range. -/
def contains (r : Registry) (code : PortfolioCode) : Bool :=
  r.min ≤ code.number && code.number ≤ r.max

/-- The portfolio code that an integer is, if it is in the range. -/
def check (r : Registry) (code : Int) : Except Failure PortfolioCode :=
  if (r.min.toNat : Int) ≤ code ∧ code ≤ r.max.toNat then .ok ⟨UInt16.ofNat code.toNat⟩
  else .error (.outOfRange code r.min r.max)

/-- The codes of the range in ascending order. -/
def codes (r : Registry) : List PortfolioCode :=
  (List.range' r.min.toNat (r.max.toNat + 1 - r.min.toNat)).map fun n => ⟨UInt16.ofNat n⟩

/-- Puts a portfolio in its place among portfolios of ascending codes; it replaces the one with its
code. -/
def insert (portfolio : Portfolio) : List Portfolio → List Portfolio
  | [] => [portfolio]
  | other :: rest =>
    if portfolio.code = other.code then portfolio :: rest
    else if portfolio.code.number < other.code.number then portfolio :: other :: rest
    else other :: insert portfolio rest

/-- The portfolio registered for a code. -/
def get? (r : Registry) (code : PortfolioCode) : Option Portfolio :=
  r.portfolios.find? fun portfolio => portfolio.code = code

/-- Registers a name for a code. The code has to be in the range and the name must not be blank; a
name that the code had before is replaced. The portfolio is given back as it is found afterwards,
and it would be a broken promise not to find it. -/
def register (r : Registry) (code : Int) (name : String) : Except Failure (Portfolio × Registry) :=
  match r.check code with
  | .error failure => .error failure
  | .ok code =>
    if Text.blank name then
      .error (.input ("portfolio " ++ code.text ++ " name cannot be empty"))
    else
      let after := { r with portfolios := insert ⟨code, name⟩ r.portfolios }
      match after.get? code with
      | some portfolio => .ok (portfolio, after)
      | none => .error (.internal "registered portfolio vanished")

end Registry

end ReferenceMint
