import ReferenceMint.Environment

/-!
# The grammar of command lines

A command line is read word by word. A word is an option, by its long name behind two hyphens or by
its letter behind one, or the value of the option before it, or the name of a command, or an
operand. Two hyphens alone make every later word an operand.

The words are texts, and so are the values of the variables that stand in for options.

A value that is attached to its option is looked at right away. A value in a word of its own is held
back until the next option, or until the words of its level end. So a command line with several
faults is refused for the one that is met first in this order.
-/

namespace ReferenceMint.CommandLine

/-- Why a command line is not carried out. -/
inductive Refusal where
  /-- A value is no number of its range. -/
  | invalidNumber
  /-- A value is missing or is not among those possible. -/
  | invalidValue
  /-- An option or operand is not known. -/
  | unknownArgument
  /-- A value is attached to an option without value. -/
  | surplusValue
  /-- A required option or operand is missing. -/
  | missingArgument
  /-- A word is no command. -/
  | unknownCommand
  /-- An option is given twice. -/
  | repeatedOption
  /-- There is no command, and nothing else either. -/
  | nothingGiven
  /-- There is no command. -/
  | missingCommand
  /-- Help is asked for. -/
  | help
  /-- The version is asked for. -/
  | version
deriving DecidableEq

/-- The exit code: asking for something is no error. -/
def Refusal.exitCode : Refusal → Nat
  | .help | .version => 0
  | _ => 2

/-- How results are written. -/
inductive OutputStyle where
  /-- As text for a reader. -/
  | text
  /-- As JSON. -/
  | json
deriving DecidableEq

/-- What values an option takes. -/
inductive ValueKind where
  /-- A path, which is not empty. -/
  | path
  /-- The name of an output style. -/
  | style
  /-- An integer from `low` to `high`, both of which are signed numbers of 64 bits. -/
  | integer (low high : Int)
  /-- A number of 64 bits. -/
  | large
deriving DecidableEq

/-- A value. -/
inductive Value where
  | text (s : String)
  | style (s : OutputStyle)
  | number (n : Int)
deriving DecidableEq

/-- The value that a text is. -/
def ValueKind.read (kind : ValueKind) (s : String) : Except Refusal Value :=
  match kind with
  | .path => if s.isEmpty then .error .invalidValue else .ok (.text s)
  | .style =>
    if s = "text" then .ok (.style .text)
    else if s = "json" then .ok (.style .json)
    else .error .invalidValue
  | .integer low high =>
    match Numeral.readInt64 s.toList with
    | .ok n => if low ≤ n ∧ n ≤ high then .ok (.number n) else .error .invalidNumber
    | .error _ => .error .invalidNumber
  | .large =>
    match Numeral.readNat (Numeral.highest 2 64) s.toList with
    | .ok n => .ok (.number n)
    | .error _ => .error .invalidNumber

/-- An option that takes a value. -/
structure OptionSpec where
  /-- The long name. -/
  name : String
  letter : Option Char
  /-- What values it takes. -/
  kind : ValueKind
  /-- The variable of the environment that stands in for it. -/
  environmentName : Option String
  /-- Whether a word that looks like a negative number is a value. -/
  takesNegative : Bool

/-- A level of a command line: the words in front of a command, or those behind it. -/
structure Level where
  options : List OptionSpec
  /-- The name of the one operand. -/
  operand : Option String
  /-- The commands that can follow. -/
  commands : List String
  /-- Whether the version can be asked for. -/
  hasVersion : Bool

/-- What has been read of a level. -/
structure Progress where
  /-- The options with their values, and the operand. -/
  values : List (String × Value)
  /-- The option whose value is held back or still to come, and the value. -/
  held : Option (OptionSpec × Option String)
  /-- Whether every later word is an operand. -/
  onlyOperands : Bool

namespace Progress

/-- Nothing has been read. -/
def start : Progress := ⟨[], none, false⟩

/-- Whether the value of an option is still to come. -/
def awaits (p : Progress) : Option OptionSpec :=
  match p.held with
  | some (spec, none) => some spec
  | _ => none

/-- Takes up the value of an option. -/
def take (p : Progress) (spec : OptionSpec) (s : String) : Except Refusal Progress :=
  if p.values.any fun v => v.1 = spec.name then .error .repeatedOption
  else (spec.kind.read s).map fun v => { p with values := p.values ++ [(spec.name, v)] }

/-- Looks at the value that is held back. -/
def settle (p : Progress) : Except Refusal Progress :=
  match p.held with
  | none => .ok p
  | some (_, none) => .error .invalidValue
  | some (spec, some s) => { p with held := none }.take spec s

/-- Reads an option, with the value attached to it if there is one. -/
def option (p : Progress) (spec : OptionSpec) (attached : Option String) :
    Except Refusal Progress := do
  let p ← p.settle
  match attached with
  | some s => p.take spec s
  | none => return { p with held := some (spec, none) }

/-- Reads a request, which ends the command line. -/
def request (p : Progress) (r : Refusal) : Except Refusal Progress := do
  let _ ← p.settle
  throw r

/-- Reads an operand. Where commands can follow, a word that is none of them is taken for one that
is not known; the name of a command gets here only behind the two hyphens that do not belong there.
-/
def operand (p : Progress) (level : Level) (s : String) : Except Refusal Progress :=
  match level.operand with
  | some name =>
    if p.values.any fun v => v.1 = name then .error .unknownArgument
    else p.settle.map fun p => { p with values := p.values ++ [(name, .text s)] }
  | none =>
    if level.commands.isEmpty || level.commands.contains s then .error .unknownArgument
    else .error .unknownCommand

/-- The value of an option or operand. -/
def value? (p : Progress) (name : String) : Option Value := p.values.lookup name

end Progress

/-- The letters that an exponent may stand behind. -/
def isExponentMark (c : Char) : Bool := c = 'e' || c = 'E'

/-- Whether the characters behind a hyphen make a negative number: digits, behind the first of them
at most one point, and at most one exponent, which is not empty and comes after the point. -/
def looksNumeric (cs : List Char) : Bool :=
  let mantissa := cs.takeWhile fun c => !isExponentMark c
  let exponent := match cs.dropWhile fun c => !isExponentMark c with
    | _ :: digits => some digits
    | [] => none
  let digitsWithPoint := match Text.cutAt '.' mantissa with
    | some (whole, fraction) => !whole.isEmpty && (whole ++ fraction).all Char.isDigit
    | none => mantissa.all Char.isDigit
  digitsWithPoint && match exponent with
    | some digits => !mantissa.isEmpty && !digits.isEmpty && digits.all Char.isDigit
    | none => true

/-- The value attached to a letter: an equals sign in front of it does not count. -/
def attachedToLetter : List Char → Option String
  | [] => none
  | '=' :: cs => some (String.ofList cs)
  | cs => some (String.ofList cs)

/-- Reads the letters behind a hyphen. Every letter without value ends the command line, so only the
first letter counts. -/
def readLetters (level : Level) (p : Progress) : List Char → Except Refusal Progress
  | [] => .ok p
  | c :: cs =>
    match level.options.find? fun spec => spec.letter = some c with
    | some spec => p.option spec (attachedToLetter cs)
    | none =>
      if c = 'h' then p.request .help
      else if c = 'V' && level.hasVersion then p.request .version
      else .error .unknownArgument

/-- Reads a request by its long name. -/
def readRequest (p : Progress) (r : Refusal) (attached : Option String) : Except Refusal Progress :=
  match attached with
  | some _ => .error .surplusValue
  | none => p.request r

/-- Reads what stands behind two hyphens. -/
def readLong (level : Level) (p : Progress) (cs : List Char) : Except Refusal Progress :=
  let (name, attached) := match Text.cutAt '=' cs with
    | some (name, s) => (String.ofList name, some (String.ofList s))
    | none => (String.ofList cs, none)
  match level.options.find? fun spec => spec.name = name with
  | some spec => p.option spec attached
  | none =>
    if name = "help" then readRequest p .help attached
    else if name = "version" && level.hasVersion then readRequest p .version attached
    else .error .unknownArgument

/-- Reads a word that is neither an option nor a command: a value that is still to come, or an
operand. -/
def readPlain (level : Level) (p : Progress) (s : String) : Except Refusal Progress :=
  match p.awaits with
  | some spec => .ok { p with held := some (spec, some s) }
  | none => p.operand level s

/-- Whether the word is the value of an option that takes negative numbers. -/
def isNegativeValue (p : Progress) (cs : List Char) : Bool :=
  match p.awaits with
  | some spec => spec.takesNegative && looksNumeric cs
  | none => false

/-- Reads a word that is no command. -/
def readWord (level : Level) (p : Progress) (s : String) : Except Refusal Progress :=
  if p.onlyOperands then p.operand level s
  else match s.toList with
    | ['-', '-'] => .ok { p with onlyOperands := true }
    | '-' :: '-' :: cs => readLong level p cs
    | ['-'] => readPlain level p s
    | '-' :: cs =>
      if isNegativeValue p cs then readPlain level p s else readLetters level p cs
    | _ => readPlain level p s

/-- Whether the word is a command where it stands. -/
def isCommand (level : Level) (p : Progress) (s : String) : Bool :=
  !p.onlyOperands && p.awaits.isNone && level.commands.contains s

/-- Reads the words of a level up to a command: what was read, and the command with the words behind
it. -/
def readLevel (level : Level) : List String → Progress →
    Except Refusal (Progress × Option (String × List String))
  | [], p => .ok (p, none)
  | s :: rest, p =>
    if isCommand level p s then .ok (p, some (s, rest))
    else do readLevel level rest (← readWord level p s)

/-- Takes the values of variables for the options that are missing. -/
def readVariables (env : Environment) : List OptionSpec → Progress → Except Refusal Progress
  | [], p => .ok p
  | spec :: rest, p =>
    match spec.environmentName.bind fun name => env.lookup name with
    | some s =>
      if (p.value? spec.name).isSome then readVariables env rest p
      else do readVariables env rest (← p.take spec s)
    | none => readVariables env rest p

/-- The end of a level: the value that is held back, and the variables. -/
def finish (env : Environment) (level : Level) (p : Progress) : Except Refusal Progress := do
  readVariables env level.options (← p.settle)

end ReferenceMint.CommandLine
