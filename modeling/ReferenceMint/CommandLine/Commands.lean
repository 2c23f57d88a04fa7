import ReferenceMint.Backfill
import ReferenceMint.CommandLine.Invocation
import ReferenceMint.CommandLine.Workspace

/-!
# Commands

Each command checks the configuration, opens the database if it needs one, runs a program over it,
and writes the result as text or as JSON. What was issued before a failure is written all the same,
since it will not be issued again.
-/

namespace ReferenceMint.CommandLine

/-- Why a command failed: what it says first, and the errors below. -/
structure CommandError where
  message : String
  /-- The messages of the errors below, the nearest first. -/
  causes : List String
deriving DecidableEq

/-- What a command leaves. -/
structure CommandResult where
  /-- What it wrote. -/
  output : String
  /-- Why it failed, if it did. -/
  error : Option CommandError
  /-- The files afterwards. -/
  files : Workspace

/-! ## Errors -/

/-- The messages of the errors below an allocation error. -/
def causesOf : AllocationError → List String
  | .storage cause => [cause.message]
  | .malformed cause => [cause.message]
  | _ => []

/-- An allocation error as the failure of a command. -/
def CommandError.ofAllocation (e : AllocationError) : CommandError := ⟨e.message, causesOf e⟩

/-- Something that went wrong in a context. -/
def CommandError.within (context : String) (e : AllocationError) : CommandError :=
  ⟨context, e.message :: causesOf e⟩

/-! ## Text -/

/-- A text in a column of the given width, at its left. -/
def leftAligned (width : Nat) (s : String) : String := s ++ "".pushn ' ' (width - s.length)

/-- A text in a column of the given width, at its right. -/
def rightAligned (width : Nat) (s : String) : String := "".pushn ' ' (width - s.length) ++ s

/-- Lines with their ends. -/
def linesText (lines : List String) : String := String.join (lines.map fun line => line ++ "\n")

/-- A JSON value on lines of its own. -/
def jsonText (json : Json) : String := json.pretty ++ "\n"

/-- The failure of an allocation, as JSON. -/
def failureJson (e : AllocationError) : Json :=
  .record [("kind", e.kind.toJson), ("message", .text e.message)]

/-- The text about issued references. -/
def issuedText (style : OutputStyle) (portfolio : Int) (issued : List Reference)
    (failure : Option AllocationError) : String :=
  match style with
  | .text => linesText (issued.map Reference.text)
  | .json => jsonText (.record [("error", .optional (failure.map failureJson)),
      ("portfolio", .int portfolio),
      ("references", .array (issued.map fun r => .text r.text))])

/-- The text about a reference that was taken apart. -/
def tripleText (style : OutputStyle) (registry : Registry) (reference : String) (t : Triple) :
    String :=
  match style with
  | .text => linesText ([
      "  Portfolio: " ++ t.portfolio.text,
      "  Bucket:    " ++ t.letter.text,
      "  Sequence:  " ++ Numeral.text t.sequence.toNat] ++
      if registry.contains t.portfolio then []
      else ["  Warning:   portfolio outside configured range " ++
        Failure.rangeText registry.min registry.max])
  | .json => jsonText (.record [("alpha", t.letter.toJson), ("portfolio", t.portfolio.toJson),
      ("portfolioInRange", .bool (registry.contains t.portfolio)), ("reference", .text reference),
      ("sequence", .nat t.sequence.toNat)])

/-- The line about a bucket. -/
def bucketLine (active : Option Cursor) (b : Bucket) : String :=
  "  " ++ leftAligned 8 b.letter.text ++ " " ++
    rightAligned 10 (Numeral.text b.index.toNat) ++
    if active.map Cursor.letter = some b.letter then " (active)" else ""

/-- The first line about a portfolio. -/
def portfolioLine (r : PortfolioReport) : String :=
  "Portfolio " ++ r.portfolio.text ++
    match r.name with
    | some name => " (" ++ name ++ ")"
    | none => ""

/-- The text about the buckets of a portfolio. -/
def reportText (style : OutputStyle) (r : PortfolioReport) : String :=
  match style with
  | .json => jsonText r.toJson
  | .text => linesText (portfolioLine r ::
      if r.buckets.isEmpty then ["  no references issued yet"]
      else ["", "  " ++ leftAligned 8 "BUCKET" ++ " " ++ rightAligned 10 "NEXT"] ++
        r.buckets.map (bucketLine r.active) ++
        ["", "  Capacity: " ++ Numeral.text r.capacity.toNat] ++
        if r.exhausted then ["  Status:   EXHAUSTED"] else [])

/-- The line about a record. -/
def entryLine (e : BatchEntry) : String :=
  "  " ++ leftAligned 24 e.id ++ " " ++
    match e.outcome with
    | .assigned reference => reference.text
    | .kept reference => reference.text ++ " (kept)"
    | .failed reason => "FAILED: " ++ reason

/-- The text about a batch. -/
def backfillText (style : OutputStyle) (r : BatchReport) : String :=
  match style with
  | .json => jsonText r.toJson
  | .text => linesText (r.entries.map entryLine ++ ["",
      "Portfolio " ++ r.portfolio.text ++ ": " ++ Numeral.text r.assigned ++ " assigned, " ++
        Numeral.text r.kept ++ " kept, " ++ Numeral.text r.failed ++ " failed"])

/-- The failure of a command whose batch stopped. -/
def haltError (r : BatchReport) (h : BatchHalt) : CommandError :=
  ⟨"backfill halted at " ++ h.id ++ " (" ++ Numeral.text r.unprocessed ++
    " records unprocessed): " ++ h.error.message, []⟩

/-! ## Running -/

/-- What a program for a command gives: what to write, and why the command failed, if it did. -/
abbrev Written := String × Option CommandError

/-- A result that is written with `render`; an error is all there is. -/
def written {α : Type} (render : α → Written) : Except AllocationError α → Written
  | .ok a => render a
  | .error e => ("", some (.ofAllocation e))

/-- Runs a program over the database of an invocation. -/
def runOver (i : Invocation) (files : Workspace) (p : Program Store.interface Written) :
    CommandResult :=
  match files.openDatabase i.database with
  | (files, .error failure) =>
    ⟨"", some ⟨"failed to open bucket database " ++ i.database, [failure.message]⟩, files⟩
  | (files, .ok (place, db)) =>
    let (written, db) := db.run p
    ⟨written.1, written.2, files.keep place db⟩

/-- Issues references. -/
def generate (s : Settings) (i : Invocation) (portfolio : Int) (count : Nat) :
    Program Store.interface Written :=
  (s.issueMany portfolio count).map fun (issued, failure) =>
    (issuedText i.style portfolio issued failure, failure.map CommandError.ofAllocation)

/-- Takes a reference apart. -/
def parse (s : Settings) (i : Invocation) (reference : String) : Written :=
  match s.layout.read reference with
  | .ok t => (tripleText i.style s.registry reference t, none)
  | .error e => ("", some ⟨e.message, []⟩)

/-- Shows the buckets of a portfolio. -/
def buckets (s : Settings) (i : Invocation) (portfolio : Int) : Program Store.interface Written :=
  (s.report portfolio).map (written fun r => (reportText i.style r, none))

/-- Assigns references to records. -/
def backfill (s : Settings) (i : Invocation) (portfolio : Int) (records : List LegacyRecord) :
    Program Store.interface Written :=
  (s.backfill portfolio records).map
    (written fun r => (backfillText i.style r, r.halted.map (haltError r)))

/-- Carries out what a command line asks for. -/
def carryOut (i : Invocation) (files : Workspace) : CommandResult :=
  let failed (e : CommandError) : CommandResult := ⟨"", some e, files⟩
  match i.configuration.settings with
  | .error e => failed (.within "invalid allocator settings" (.configuration e))
  | .ok s =>
    match i.command with
    | .generate portfolio count =>
      if count = 0 then failed ⟨"--count must be at least 1", []⟩
      else runOver i files (generate s i portfolio count)
    | .parse reference =>
      let (output, error) := parse s i reference
      ⟨output, error, files⟩
    | .buckets portfolio => runOver i files (buckets s i portfolio)
    | .backfill portfolio input =>
      match files.readText? input with
      | none => failed ⟨"failed to read " ++ input, []⟩
      | some text =>
        match LegacyRecord.readAll text with
        | .error e => failed ⟨e.message, []⟩
        | .ok records => runOver i files (backfill s i portfolio records)

/-- The outcome of a command line: a refusal, or what the command leaves. -/
def execute (env : Environment) (words : List String) (files : Workspace) :
    Except Refusal CommandResult :=
  (invocation env words).map fun i => carryOut i files

end ReferenceMint.CommandLine
