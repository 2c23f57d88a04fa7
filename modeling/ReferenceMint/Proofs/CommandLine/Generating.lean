import Mathlib.Algebra.Order.Ring.Nat
import ReferenceMint.Proofs.CommandLine.Workspace
import ReferenceMint.Proofs.Exchange
import ReferenceMint.Proofs.Reading
import ReferenceMint.Proofs.Series

/-!
# Commands that issue references

A request for references opens the database, carries out a series of issues and prints what the
series gives, as lines or as JSON. Either way the references are read back from the output
(`printed?_issuedText`), whether or not there was a failure. On a file that keeps a book a request
takes from the book what it prints (`carryOut_request`), so what is printed is what the file has
issued since (`commits_of_takes`).

Each request opens the file anew, and finds the book that the one before has left. So requests one
after the other take what one series takes (`exists_takes_requests`), wherever in them the space
ends, and whatever commands have made the file before (`requests_print_what_they_commit`). All of
them must be able to open the file; a name that leads through the very file it is for is found only
once.
-/

namespace ReferenceMint.CommandLine

open Settings (isSome_shortfall shortfall)
open Store (Book OpenDatabase cursorOf)

/-! ## What is printed -/

/-- The references in an output, as its style shows them: one on each line, or the items of the
array under their name. -/
def printed? (style : OutputStyle) (output : String) : Option (List String) :=
  match style with
  | .text => some ((Text.lines output.toList).map String.ofList)
  | .json =>
    match (Json.ofText? output).bind (Json.slots ["references"]) with
    | some [references] => Json.required (Json.toList? Json.toText?) references
    | _ => none

/-- The characters of lines with their ends. -/
theorem toList_linesText (lines : List String) :
    (linesText lines).toList = (lines.map String.toList).flatMap fun line => line ++ ['\n'] := by
  simp [linesText, String.toList_join, List.flatMap_map]

/-- The JSON form of a failure is plain. -/
theorem plain_failureJson (e : AllocationError) : (failureJson e).Plain :=
  Json.plain_record <| by
    simp [e.kind.plain_toJson, Json.plain_text]

/-- In either style the references that were issued are printed, whether or not there was a
failure. -/
theorem printed?_issuedText (style : OutputStyle) (code : Int) {refs : List Reference}
    (failure : Option AllocationError)
    (hblank : ∀ r ∈ refs, ∀ c ∈ r.text.toList, Text.isBlank c = false) :
    printed? style (issuedText style code refs failure) = some (refs.map Reference.text) := by
  cases style with
  | text =>
    show some ((Text.lines (linesText (refs.map Reference.text)).toList).map String.ofList) = _
    rw [toList_linesText, Text.lines_flatMap]
    · simp
    · simpa using hblank
  | json =>
    -- The record is read back from its lines, so its slots are there to be looked at.
    have hreferences : (refs.map fun r => Json.text r.text) =
        (refs.map Reference.text).map Json.text := by
      rw [List.map_map]
      rfl
    have hitems : Json.PlainItems ((refs.map Reference.text).map Json.text) :=
      Json.plainItems_of_forall fun item hitem => by
        obtain ⟨text, -, rfl⟩ := List.mem_map.mp hitem
        exact Json.plain_text text
    have hfailure : (Json.optional (failure.map failureJson)).Plain := by
      cases failure with
      | none => trivial
      | some e => exact plain_failureJson e
    have hplain : (Json.record [("error", .optional (failure.map failureJson)),
        ("portfolio", .int code),
        ("references", .array ((refs.map Reference.text).map Json.text))]).Plain := by
      apply Json.plain_record
      simp only [List.forall_mem_cons]
      exact ⟨hfailure, rfl, hitems, by simp⟩
    have hread : Json.toList? Json.toText? (.array ((refs.map Reference.text).map Json.text)) =
        some (refs.map Reference.text) :=
      Json.toList?_map (fun text => show (Json.text text).toText? = some text from rfl) _
    unfold printed? issuedText jsonText
    simp only [hreferences, Json.ofText?_pretty hplain, Option.bind_some]
    rw [Json.slots_record _ (by simp)]
    exact hread

/-! ## What is committed -/

/-- The buckets of a portfolio in the database file under a path. -/
def bucketsIn (w : Workspace) (path : Path) (portfolio : PortfolioCode) : List Bucket :=
  match Workspace.fileOf (w.contentAt path) with
  | .ok file => (file.contents.buckets portfolio).toOption.getD []
  | .error _ => []

/-- The database file under a path has issued the triple. -/
def IssuedIn (w : Workspace) (path : Path) (t : Triple) : Prop :=
  Bucket.issued (bucketsIn w path t.portfolio) t.letter t.sequence = true

/-- A file that keeps a book has the buckets of the book. -/
theorem bucketsIn_eq {w : Workspace} {path : Path} {b : Book} (h : w.Keeps path b)
    (hb : b.HasHistory) (portfolio : PortfolioCode) :
    bucketsIn w path portfolio = b.rows portfolio := by
  obtain ⟨file, hfile, hkeeps⟩ := h
  unfold bucketsIn
  simp only [hfile]
  rcases hkeeps with ⟨-, table, htable, hholds⟩ | ⟨hempty, rfl⟩
  · rw [Store.Database.buckets_of_shows htable (hholds.shows portfolio) (hb portfolio).tidy]
    rfl
  · rw [hempty]
    rfl

/-! ## One request -/

/-- A request for references: the command that issues so many of them from a portfolio, on the
database of a name. -/
def request (name : String) (c : Configuration) (code : Int) (style : OutputStyle) (count : Nat) :
    Invocation :=
  ⟨name, style, c, .generate code count⟩

/-- The texts are printed and committed by a request for references of a portfolio. -/
structure Commits (s : Settings) (portfolio : PortfolioCode) (path : Path) (count : Nat)
    (before : Workspace) (texts : List String) (style : OutputStyle) (result : CommandResult) :
    Prop where
  /-- The texts are what is printed. -/
  printed : printed? style result.output = some texts
  /-- They are the references of triples of the portfolio, in order, and these are exactly the
  triples that the file has issued since. -/
  committed : ∃ taken : List Triple, (∀ t ∈ taken, t.portfolio = portfolio) ∧
    taken.Pairwise Triple.Before ∧
    List.Forall₂ (fun t text => s.layout.write t = .ok ⟨text⟩) taken texts ∧
    ∀ t, t ∈ taken ↔ IssuedIn result.files path t ∧ ¬ IssuedIn before path t
  /-- What the file had issued before, it has still issued. -/
  kept : ∀ t, IssuedIn before path t → IssuedIn result.files path t
  /-- The request fails exactly if fewer references are printed than were asked for. -/
  failed : result.error.isSome = true ↔ texts.length < count

variable {s : Settings} {c : Configuration} {code : Int} {portfolio : PortfolioCode} {name : String}
  {path : Path} {w files : Workspace} {b after : Book} {count : Nat} {refs : List Reference}

/-- The references that are taken from the book are printed. -/
theorem printed?_of_takes (h : s.Takes portfolio b count refs after) (style : OutputStyle)
    (code : Int) (failure : Option AllocationError) :
    printed? style (issuedText style code refs failure) = some (refs.map Reference.text) := by
  apply printed?_issuedText
  intro r hr ch hch
  obtain ⟨t, hwrite⟩ := h.exists_write hr
  exact Layout.isBlank_of_mem_write hwrite hch

/-- A request carries out a series of issues on the book that the file keeps. -/
theorem carryOut_request (hc : c.settings = .ok s) (hcheck : s.check code = .ok portfolio)
    (h : w.Reopens name path) (hkeeps : w.Keeps path b) (hb : b.HasHistory) (hcount : count ≠ 0) :
    ∃ refs after, s.Takes portfolio b count refs after ∧ ∀ style, ∃ files,
      carryOut (request name c code style count) w =
        ⟨issuedText style code refs (shortfall portfolio count refs),
          (shortfall portfolio count refs).map CommandError.ofAllocation, files⟩ ∧
      files.Reopens name path ∧ files.Keeps path after := by
  obtain ⟨refs, after, htakes, hvalue⟩ := s.value_issueMany hcheck hb count
  refine ⟨refs, after, htakes, fun style => ?_⟩
  have hasks : (generate s (request name c code style count) code count).Asks s.Allows :=
    (s.asks_issueMany code count).map _
  obtain ⟨files, hrun, hreopens, hafter⟩ := Workspace.runOver_of_reopens hasks
    (i := request name c code style count) h hkeeps hb
  have hgives : (generate s (request name c code style count) code count).value Book.answer b =
      ((issuedText style code refs (shortfall portfolio count refs),
        (shortfall portfolio count refs).map CommandError.ofAllocation), after) := by
    unfold generate
    rw [Program.value_map, hvalue]
    rfl
  rw [hgives] at hrun hafter
  refine ⟨files, ?_, hreopens, hafter⟩
  rw [← hrun]
  unfold carryOut request
  simp only [hc, if_neg hcount]

/-- The references that are taken from the book are printed and committed. -/
theorem commits_of_takes (h : s.Takes portfolio b count refs after) (hb : b.HasHistory)
    (hbefore : w.Keeps path b) (hafter : files.Keeps path after) (style : OutputStyle)
    (code : Int) :
    Commits s portfolio path count w (refs.map Reference.text) style
      ⟨issuedText style code refs (shortfall portfolio count refs),
        (shortfall portfolio count refs).map CommandError.ofAllocation, files⟩ where
  printed := printed?_of_takes h style code _
  committed := by
    have hindex := (hb portfolio).tidy.one_le_index_cursorOf
    refine ⟨(s.remainingIn portfolio b).take count, fun t ht => ?_, ?_, ?_, fun t => ?_⟩
    · exact ((Triple.mem_remaining hindex).mp (List.mem_of_mem_take ht)).1
    · exact (Triple.pairwise_remaining hindex).sublist (List.take_sublist _ _)
    · rw [List.forall₂_map_right_iff]
      exact h.written
    · unfold IssuedIn
      rw [bucketsIn_eq hafter h.history, bucketsIn_eq hbefore hb]
      exact h.mem_take_iff hb
  kept t ht := by
    unfold IssuedIn at ht ⊢
    rw [bucketsIn_eq hbefore hb] at ht
    rw [bucketsIn_eq hafter h.history]
    exact h.issued_of_issued ht
  failed := by
    rw [List.length_map, Option.isSome_map]
    exact isSome_shortfall

/-- A request for nothing is refused. -/
theorem carryOut_request_zero (hc : c.settings = .ok s) (style : OutputStyle) (w : Workspace) :
    carryOut (request name c code style 0) w =
      ⟨"", some ⟨"--count must be at least 1", []⟩, w⟩ := by
  unfold carryOut request
  simp only [hc, if_true]

/-! ## One request after the other -/

/-- Requests for references of a portfolio, each in a style and for a number of them. -/
def requests (name : String) (c : Configuration) (code : Int) (asked : List (OutputStyle × Nat)) :
    List Invocation :=
  asked.map fun (style, count) => request name c code style count

/-- The references that commands print one after the other. -/
def printedBy : List Invocation → Workspace → List String
  | [], _ => []
  | i :: rest, w =>
    (printed? i.style (carryOut i w).output).getD [] ++ printedBy rest (carryOut i w).files

/-- Requests one after the other print what one series of issues takes from the book. -/
theorem exists_takes_requests (hc : c.settings = .ok s) (hcheck : s.check code = .ok portfolio)
    (asked : List (OutputStyle × Nat)) (h : w.Reopens name path) (hkeeps : w.Keeps path b)
    (hb : b.HasHistory) : ∃ refs after,
      s.Takes portfolio b (asked.map Prod.snd).sum refs after ∧
      printedBy (requests name c code asked) w = refs.map Reference.text ∧
      (filesAfter (requests name c code asked) w).Reopens name path ∧
      (filesAfter (requests name c code asked) w).Keeps path after := by
  induction asked generalizing w b with
  | nil => exact ⟨[], b, .none hb, rfl, h, hkeeps⟩
  | cons first rest ih =>
    obtain ⟨style, count⟩ := first
    have hprints : printedBy (requests name c code ((style, count) :: rest)) w =
        (printed? style (carryOut (request name c code style count) w).output).getD [] ++
          printedBy (requests name c code rest)
            (carryOut (request name c code style count) w).files :=
      rfl
    have hleaves : filesAfter (requests name c code ((style, count) :: rest)) w =
        filesAfter (requests name c code rest)
          (carryOut (request name c code style count) w).files := rfl
    rw [hprints, hleaves, List.map_cons, List.sum_cons]
    by_cases hcount : count = 0
    · -- Nothing is printed for such a request, and no file changes.
      subst hcount
      have hnone : (printed? style "").getD [] = [] := by cases style <;> rfl
      rw [carryOut_request_zero hc, hnone, Nat.zero_add]
      exact ih h hkeeps hb
    · obtain ⟨refs, middle, htakes, hresult⟩ := carryOut_request hc hcheck h hkeeps hb hcount
      obtain ⟨files, hcarry, hreopens, hmiddle⟩ := hresult style
      obtain ⟨more, after, hmore, hprinted, hafter⟩ := ih hreopens hmiddle htakes.history
      refine ⟨refs ++ more, after, htakes.trans hmore, ?_, ?_⟩
      · rw [hcarry, printed?_of_takes htakes, Option.getD_some, hprinted, List.map_append]
      · rw [hcarry]
        exact hafter

/-- Requests on a database file print what they commit. -/
structure IssuesInSeries (s : Settings) (c : Configuration) (code : Int) (portfolio : PortfolioCode)
    (name : String) (path : Path) (first : Workspace) : Prop where
  /-- After any requests, the next one prints and commits as many references as it asks for, or as
  there is space for, and the same ones in either style. -/
  commits : ∀ asked count, 1 ≤ count →
    let w := filesAfter (requests name c code asked) first
    ∃ texts : List String,
      texts.length = min count ((cursorOf (bucketsIn w path portfolio)).room s.capacity) ∧
      ∀ style, Commits s portfolio path count w texts style
        (carryOut (request name c code style count) w)
  /-- A request for nothing fails, prints nothing and changes no file. -/
  refuses : ∀ style w,
    (carryOut (request name c code style 0) w).error.isSome = true ∧
      (carryOut (request name c code style 0) w).output = "" ∧
      (carryOut (request name c code style 0) w).files = w
  /-- All that requests print is what one series of issues gives that starts from the file as it
  was. -/
  continues : ∃ db, (first.openDatabase name).2 = .ok (some path, db) ∧
    ∀ asked : List (OutputStyle × Nat), printedBy (requests name c code asked) first =
      (db.run (s.issueMany code (asked.map Prod.snd).sum)).1.1.map Reference.text

/-- Whatever commands made the database file of a name, or if there is none yet: as long as the file
can be opened to be written and opened again, requests for references of a portfolio in range, under
one valid configuration, print what they commit. -/
theorem requests_print_what_they_commit {start : Workspace} (earlier : List Invocation)
    (hnew : start.get? path = none) (hreopens : (filesAfter earlier start).Reopens name path)
    (hc : c.settings = .ok s) (hcheck : s.check code = .ok portfolio) :
    IssuesInSeries s c code portfolio name path (filesAfter earlier start) := by
  obtain ⟨b, hkeeps, hb⟩ :=
    Workspace.keepsBook_filesAfter earlier (Workspace.keepsBook_of_none hnew)
  refine ⟨fun asked count hcount => ?_, fun style w => ?_, ?_⟩
  · -- The requests before have left a book, and the next one takes from it.
    obtain ⟨before, middle, htaken, -, hagain, hmiddle⟩ :=
      exists_takes_requests hc hcheck asked hreopens hkeeps hb
    obtain ⟨refs, after, htakes, hresult⟩ :=
      carryOut_request hc hcheck hagain hmiddle htaken.history (Nat.one_le_iff_ne_zero.mp hcount)
    refine ⟨refs.map Reference.text, ?_, fun style => ?_⟩
    · rw [List.length_map, htakes.length_refs, bucketsIn_eq hmiddle htaken.history]
      exact congrArg (min count) Triple.length_remaining
    · obtain ⟨files, hcarry, -, hafter⟩ := hresult style
      rw [hcarry]
      exact commits_of_takes htakes htaken.history hmiddle hafter style code
  · rw [carryOut_request_zero hc]
    exact ⟨rfl, rfl, rfl⟩
  · -- Both the requests and the series take as many references from the same book.
    obtain ⟨db, hdb, hwritable⟩ := hreopens.opens
    refine ⟨db, hdb, fun asked => ?_⟩
    obtain ⟨refs, after, htakes, hprinted, -, -⟩ :=
      exists_takes_requests hc hcheck asked hreopens hkeeps hb
    obtain ⟨series, later, hseries, hvalue⟩ := s.value_issueMany hcheck hb (asked.map Prod.snd).sum
    obtain ⟨contents, hrun, -⟩ := OpenDatabase.run_eq hwritable (hkeeps.openDatabase hdb) hb
      (s.asks_issueMany code (asked.map Prod.snd).sum)
    rw [hprinted, hrun, hvalue, htakes.refs_unique hseries]

/-- A configuration with one digit for a sequence and one sequence for each letter. -/
def oneOfEachLetter : Configuration :=
  { Configuration.standard with digits := 1, bucketSize := some 1 }

/-- A command that takes all letters but the last. -/
def allButLast : Invocation := request "refs.db" oneOfEachLetter 3 .text 25

/-- After all letters but the last were taken from a new file, a request for three references prints
and commits the last one, in either style. -/
theorem requests_print_what_they_commit_last_letter : ∃ s, oneOfEachLetter.settings = .ok s ∧
    IssuesInSeries s oneOfEachLetter 3 ⟨3⟩ "refs.db" [Text.bytes "refs.db"]
      (filesAfter [allButLast] []) ∧
    ∀ style, Commits s ⟨3⟩ [Text.bytes "refs.db"] 3 (filesAfter [allButLast] []) ["3Z1"] style
      (carryOut (request "refs.db" oneOfEachLetter 3 style 3) (filesAfter [allButLast] [])) := by
  obtain ⟨s, hc, hcheck⟩ : ∃ s, oneOfEachLetter.settings = .ok s ∧ s.check 3 = .ok ⟨3⟩ :=
    ⟨_, rfl, rfl⟩
  have hreopens : (filesAfter [allButLast] []).Reopens "refs.db" [Text.bytes "refs.db"] :=
    ⟨⟨_, by rfl, by rfl⟩, ⟨_, by rfl⟩⟩
  have hseries := requests_print_what_they_commit [allButLast] rfl hreopens hc hcheck
  refine ⟨s, hc, hseries, ?_⟩
  obtain ⟨texts, -, hcommits⟩ := hseries.commits [] 3 (by decide)
  have hprinted : printed? .text
      (carryOut (request "refs.db" oneOfEachLetter 3 .text 3) (filesAfter [allButLast] [])).output =
        some ["3Z1"] := by decide +kernel
  obtain rfl : texts = ["3Z1"] := Option.some.inj ((hcommits .text).printed.symm.trans hprinted)
  exact hcommits

end ReferenceMint.CommandLine
