import ReferenceMint.CommandLine.Grammar

/-!
# Invocations

What a command line asks for: a database, an output style, a configuration, and a command with what
belongs to it. The command with its options is read before the options in front of it are complete,
so a fault behind the command is met before one that was held back in front of it.
-/

namespace ReferenceMint.CommandLine

/-- A command with what belongs to it. -/
inductive Command where
  /-- Issue references. -/
  | generate (portfolio : Int) (count : Nat)
  /-- Take a reference apart. -/
  | parse (reference : String)
  /-- Show the buckets of a portfolio. -/
  | buckets (portfolio : Int)
  /-- Assign references to the records that a file lists. -/
  | backfill (portfolio : Int) (input : String)
deriving DecidableEq

/-- What a command line asks for. -/
structure Invocation where
  /-- The path of the database. -/
  database : String
  /-- How results are written. -/
  style : OutputStyle
  /-- The configuration, unchecked. -/
  configuration : Configuration
  command : Command
deriving DecidableEq

/-- Numbers of so many bits. -/
def wordKind (bits : Nat) : ValueKind := .integer 0 (Numeral.highest 2 bits)

/-- Signed numbers of 64 bits. -/
def signedKind : ValueKind := .integer (-(Numeral.limit64 + 1)) Numeral.limit64

/-- The options in front of a command. -/
def rootOptions : List OptionSpec := [
  ⟨"db", none, .path, some "CLIENTREF_DB", false⟩,
  ⟨"format", none, .style, none, false⟩,
  ⟨"portfolio-min", none, wordKind 16, some "CLIENTREF_PORTFOLIO_MIN", false⟩,
  ⟨"portfolio-max", none, wordKind 16, some "CLIENTREF_PORTFOLIO_MAX", false⟩,
  ⟨"sequence-width", none, wordKind 8, some "CLIENTREF_SEQUENCE_WIDTH", false⟩,
  ⟨"bucket-capacity", none, wordKind 32, some "CLIENTREF_BUCKET_CAPACITY", false⟩,
  ⟨"max-attempts", none, wordKind 32, some "CLIENTREF_MAX_ATTEMPTS", false⟩,
  ⟨"backoff-base-ms", none, .large, some "CLIENTREF_BACKOFF_BASE_MS", false⟩,
  ⟨"backoff-max-ms", none, .large, some "CLIENTREF_BACKOFF_MAX_MS", false⟩]

/-- The option for a portfolio. -/
def portfolioOption : OptionSpec := ⟨"portfolio", some 'p', signedKind, none, true⟩

/-- The option for a count. -/
def countOption : OptionSpec := ⟨"count", some 'n', wordKind 32, none, false⟩

/-- The option for an input file. -/
def inputOption : OptionSpec := ⟨"input", some 'i', .path, none, false⟩

/-- The commands with what can stand behind each. -/
def commandLevels : List (String × Level) := [
  ("generate", ⟨[portfolioOption, countOption], none, [], false⟩),
  ("parse", ⟨[], some "reference", [], false⟩),
  ("buckets", ⟨[portfolioOption], none, [], false⟩),
  ("backfill", ⟨[portfolioOption, inputOption], none, [], false⟩)]

/-- The command that gives help. -/
def helpCommand : String := "help"

/-- The names of the commands. -/
def commandNames : List String := commandLevels.map Prod.fst ++ [helpCommand]

/-- What can stand in front of a command. -/
def rootLevel : Level := ⟨rootOptions, none, commandNames, true⟩

/-- The number given for an option. -/
def numberOf (p : Progress) (name : String) : Except Refusal Int :=
  match p.value? name with
  | some (.number n) => .ok n
  | _ => .error .missingArgument

/-- The text given for an option or operand. -/
def textOf (p : Progress) (name : String) : Except Refusal String :=
  match p.value? name with
  | some (.text s) => .ok s
  | _ => .error .missingArgument

/-- The number given for an option, or another. -/
def numberOr (p : Progress) (name : String) (default : Nat) : Nat :=
  match p.value? name with
  | some (.number n) => n.toNat
  | _ => default

/-- The command of a name with what was read behind it. -/
def commandOf (name : String) (p : Progress) : Except Refusal Command := do
  if name = "generate" then
    return .generate (← numberOf p "portfolio") (numberOr p "count" 1)
  else if name = "parse" then return .parse (← textOf p "reference")
  else if name = "buckets" then return .buckets (← numberOf p "portfolio")
  else if name = "backfill" then
    return .backfill (← numberOf p "portfolio") (← textOf p "input")
  else throw .unknownCommand

/-- Reads the words behind the request for help on a command: no command has commands of its own. -/
def readHelp : List String → Refusal
  | [] => .help
  | [name] => if commandNames.contains name then .help else .unknownCommand
  | _ => .unknownCommand

/-- Reads a command and the words behind it. -/
def readCommand (name : String) (words : List String) : Except Refusal Command := do
  if name = helpCommand then throw (readHelp words)
  match commandLevels.lookup name with
  | none => throw .unknownCommand
  | some level =>
    let (p, _) ← readLevel level words .start
    commandOf name (← finish [] level p)

/-- The configuration that the options in front of a command amount to. -/
def configurationOf (p : Progress) : Configuration :=
  let standard := Configuration.standard
  { lowest := UInt16.ofNat (numberOr p "portfolio-min" standard.lowest.toNat)
    highest := UInt16.ofNat (numberOr p "portfolio-max" standard.highest.toNat)
    digits := UInt8.ofNat (numberOr p "sequence-width" standard.digits.toNat)
    bucketSize := match p.value? "bucket-capacity" with
      | some (.number n) => some (UInt32.ofNat n.toNat)
      | _ => none
    tries := UInt32.ofNat (numberOr p "max-attempts" standard.tries.toNat)
    firstDelay := UInt64.ofNat (numberOr p "backoff-base-ms" standard.firstDelay.toNat)
    longestDelay := UInt64.ofNat (numberOr p "backoff-max-ms" standard.longestDelay.toNat) }

/-- The database in use unless another is given. -/
def defaultDatabase : String := "clientref.db"

/-- The invocation of a command with the options in front of it. -/
def invocationOf (p : Progress) (command : Command) : Invocation where
  database := match p.value? "db" with
    | some (.text s) => s
    | _ => defaultDatabase
  style := match p.value? "format" with
    | some (.style s) => s
    | _ => .text
  configuration := configurationOf p
  command := command

/-- What a command line asks for, given its words and the environment. -/
def invocation (env : Environment) (words : List String) : Except Refusal Invocation := do
  let (p, command) ← readLevel rootLevel words .start
  match command with
  | some (name, words) =>
    let command ← readCommand name words
    return invocationOf (← finish env rootLevel p) command
  | none =>
    let p ← finish env rootLevel p
    throw (if p.values.isEmpty then .nothingGiven else .missingCommand)

end ReferenceMint.CommandLine
