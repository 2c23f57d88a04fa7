import ReferenceMint.Reference

/-!
# Configuration

A configuration says which portfolio codes are in use, how many digits a sequence has, how many
sequences a letter has, and how often and after what delays a claim is tried. It is checked once: a
configuration that passes gives the settings that everything else works with, and the settings carry
what was checked.
-/

namespace ReferenceMint

/-- A configuration. -/
structure Configuration where
  /-- The lowest portfolio code. -/
  lowest : UInt16
  /-- The highest portfolio code. -/
  highest : UInt16
  /-- The number of digits of a sequence. -/
  digits : UInt8
  /-- The number of sequences of a letter, or none for as many as the digits can write. -/
  bucketSize : Option UInt32
  /-- How often a claim is tried. -/
  tries : UInt32
  /-- The first delay between two tries, in milliseconds. -/
  firstDelay : UInt64
  /-- The longest delay between two tries, in milliseconds. -/
  longestDelay : UInt64
deriving DecidableEq

/-- What is wrong with a configuration. -/
inductive ConfigurationError where
  /-- There is no registry of the range. -/
  | range (cause : Failure)
  /-- There is no layout of the width. -/
  | layout (cause : LayoutError)
  /-- The capacity is not between one and the largest sequence of the layout. -/
  | capacity (given : UInt32) (layout : Layout)
  /-- No try is allowed. -/
  | noTries
  /-- The first delay exceeds the longest. -/
  | delays (first longest : UInt64)
  /-- The variable has a value that is no number of its range. -/
  | malformed (name value : String) (cause : Numeral.ReadError)
  /-- A registry has another range than the configured one. -/
  | otherRange (min max configuredMin configuredMax : UInt16)
deriving DecidableEq

/-- The message of a configuration error. -/
def ConfigurationError.message : ConfigurationError → String
  | .range cause => cause.message
  | .layout cause => cause.message
  | .capacity given l =>
    "bucket_capacity " ++ Numeral.text given.toNat ++ " must be within 1..=" ++
      Numeral.text l.largest.toNat ++ " for width " ++ Numeral.text l.width
  | .noTries => "max_attempts must be at least 1"
  | .delays first longest =>
    "backoff_base_ms " ++ Numeral.text first.toNat ++ " exceeds backoff_max_ms " ++
      Numeral.text longest.toNat
  | .malformed name value cause =>
    name ++ "=" ++ Text.quoted value ++ " is invalid: " ++ cause.message
  | .otherRange min max configuredMin configuredMax =>
    "registry range " ++ Failure.rangeText min max ++ " does not match configured " ++
      Failure.rangeText configuredMin configuredMax

/-- What a valid configuration amounts to. -/
structure Settings where
  /-- The portfolio codes in use and their names. -/
  registry : Registry
  /-- How references are written. -/
  layout : Layout
  /-- The number of sequences of a letter. -/
  capacity : UInt32
  /-- How often a claim is tried. -/
  tries : UInt32
  /-- A letter has at least one sequence. -/
  capacity_pos : 1 ≤ capacity
  /-- The layout can write every sequence of a letter. -/
  capacity_le : capacity ≤ layout.largest
  /-- A claim is tried at least once. -/
  tries_pos : 1 ≤ tries

namespace Configuration

/-- The configuration in use unless another is given. -/
def standard : Configuration where
  lowest := Registry.standardMin
  highest := Registry.standardMax
  digits := Layout.standardWidth
  bucketSize := none
  tries := 16
  firstDelay := 5
  longestDelay := 250

/-- The registry of the range. -/
def registry (c : Configuration) : Except ConfigurationError Registry :=
  (Registry.ofRange c.lowest c.highest).mapError .range

/-- The layout of the width. -/
def layout (c : Configuration) : Except ConfigurationError Layout :=
  (Layout.ofWidth c.digits).mapError .layout

/-- The capacity: the given one, or the largest sequence of the layout. -/
def capacity (c : Configuration) : Except ConfigurationError UInt32 :=
  c.layout.map fun layout => c.bucketSize.getD layout.largest

/-- The settings of a configuration, if it is valid: the registry and the layout exist, the capacity
fits the layout, a claim may be tried, and the delays are in order. -/
def settings (c : Configuration) : Except ConfigurationError Settings :=
  match c.registry, c.layout with
  | .error e, _ => .error e
  | .ok _, .error e => .error e
  | .ok registry, .ok layout =>
    let capacity := c.bucketSize.getD layout.largest
    if hcapacity : 1 ≤ capacity ∧ capacity ≤ layout.largest then
      if htries : 1 ≤ c.tries then
        if c.firstDelay ≤ c.longestDelay then
          .ok ⟨registry, layout, capacity, c.tries, hcapacity.1, hcapacity.2, htries⟩
        else .error (.delays c.firstDelay c.longestDelay)
      else .error .noTries
    else .error (.capacity capacity layout)

/-- Checks a configuration. -/
def check (c : Configuration) : Except ConfigurationError Unit := c.settings.map fun _ => ()

/-- The configuration with a capacity. -/
def setCapacity (c : Configuration) (capacity : UInt32) : Configuration :=
  { c with bucketSize := some capacity }

end Configuration

/-- A length of time. -/
structure Duration where
  /-- The whole seconds. -/
  seconds : Nat
  /-- The nanoseconds beyond them. -/
  nanoseconds : Nat
deriving DecidableEq

/-- The milliseconds of a duration, as a number of sixty-four bits: what is beyond is dropped. -/
def Duration.milliseconds (d : Duration) : UInt64 :=
  UInt64.ofNat (d.seconds * 1000 + d.nanoseconds / 1000000)

/-- The configuration with the given number of tries and the given delays. -/
def Configuration.setRetries (c : Configuration) (tries : UInt32) (first longest : Duration) :
    Configuration :=
  { c with tries, firstDelay := first.milliseconds, longestDelay := longest.milliseconds }

/-- The settings with another registry, whose range has to be the same. -/
def Settings.setRegistry (s : Settings) (registry : Registry) :
    Except ConfigurationError Settings :=
  if registry.min = s.registry.min ∧ registry.max = s.registry.max then .ok { s with registry }
  else .error (.otherRange registry.min registry.max s.registry.min s.registry.max)

end ReferenceMint
