import ReferenceMint.CommandLine.Commands
import ReferenceMint.Proofs.Store.Serving

/-!
# Files that commands leave

A database file that was made by commands, or is not there yet, keeps a book (`Workspace.Keeps`):
its table has the rows of the book, and its schema is up to date. Opening it prepares such a
database (`DatabaseFile.Keeps.opened`), and whatever a program asks of it within settings goes on as
on the book (`OpenDatabase.Keeps.run`). Other files do not matter. So whatever a command is, and
under whatever configuration, a file that keeps a book keeps one after it
(`Workspace.keepsBook_carryOut`).

A file that can be opened twice can be opened as often as it is used (`Workspace.Reopens.keep`):
where it is found depends on the directories alone once it is there, and its log stays as it is.
-/

namespace ReferenceMint

namespace Store

/-! ## Databases in use -/

/-- A schema that is up to date is left as it is. -/
theorem Database.prepare_of_current {db : Database} (h : db.schemaVersion = currentVersion)
    (obstacle : Option String) : (db.prepare obstacle).2 = .ok db := by
  unfold prepare
  rw [if_neg (by omega), if_pos h]

/-- A claim does not change the version of the schema. -/
theorem Database.schemaVersion_claim (db : Database) (portfolio : PortfolioCode) (expected : Cursor)
    (capacity : UInt32) :
    (db.claim portfolio expected capacity).2.schemaVersion = db.schemaVersion := by
  unfold claim
  repeat' split
  all_goals rfl

/-- No call does. -/
theorem SharedDatabase.schemaVersion_answer (c : Call) (s : SharedDatabase) :
    (SharedDatabase.answer c s).2.committed.schemaVersion = s.committed.schemaVersion := by
  cases c with
  | active portfolio =>
    show s.looked.committed.schemaVersion = _
    rw [looked_eq]
  | buckets portfolio =>
    show (s.buckets portfolio).2.committed.schemaVersion = _
    unfold SharedDatabase.buckets
    split <;> rfl
  | claim portfolio expected capacity =>
    cases hlocked : s.isLocked with
    | true => rw [answer_claim_of_locked hlocked]
    | false =>
      rw [answer_claim_of_unlocked hlocked]
      exact s.committed.schemaVersion_claim portfolio expected capacity

/-- The schema is up to date, and the table has the rows of the book. -/
def Database.Keeps (db : Database) (b : Book) : Prop :=
  db.schemaVersion = currentVersion ∧ ∃ table, db.table = some table ∧ table.Holds b

/-- A file keeps a book if its database does, or if it has no contents and the book is empty. -/
def DatabaseFile.Keeps (file : DatabaseFile) (b : Book) : Prop :=
  file.contents.Keeps b ∨ file.contents = .empty ∧ b = .empty

namespace OpenDatabase

variable {α : Type} {db : OpenDatabase} {b : Book} {settings : Settings} {p : Program interface α}

/-- Where it can be written, a database is what answers the calls of a program. -/
theorem run_of_writable (h : db.writable = true) (p : Program interface α) :
    db.run p = ((p.value SharedDatabase.answer (SharedDatabase.ofDatabase db.file.contents)).1,
      { db with file.contents :=
        (p.value SharedDatabase.answer
          (SharedDatabase.ofDatabase db.file.contents)).2.committed }) := by
  unfold run
  rw [if_pos h]
  simp only [Program.result_run, Program.state_run]

/-- Where it cannot, it stays as it is. -/
theorem run_of_not_writable (h : db.writable = false) (p : Program interface α) :
    (db.run p).2 = db := by
  unfold run
  rw [if_neg (by simp [h])]

/-- On a database that keeps a book, a program that asks for what settings allow gives what it gives
on the book, and the database keeps the book afterwards. -/
theorem run_eq (hwritable : db.writable = true) (h : db.file.contents.Keeps b) (hb : b.HasHistory)
    (hp : p.Asks settings.Allows) : ∃ contents,
      db.run p = ((p.value Book.answer b).1, { db with file.contents := contents }) ∧
      contents.Keeps (p.value Book.answer b).2 ∧ (p.value Book.answer b).2.HasHistory := by
  obtain ⟨hversion, htable⟩ := h
  obtain ⟨hresult, ⟨-, hrows⟩, hhistory⟩ :=
    SharedDatabase.bookkeeping.serves.value hp (s := .ofDatabase db.file.contents) ⟨rfl, htable⟩ hb
  -- A store does not look at the version of the schema, so that every call keeps it is shown apart.
  have hcurrent := Program.value_keeps
    (P := fun s : SharedDatabase => s.committed.schemaVersion = Database.currentVersion)
    (fun c s hs => (SharedDatabase.schemaVersion_answer c s).trans hs) p
    (s := SharedDatabase.ofDatabase db.file.contents) hversion
  refine ⟨_, ?_, ⟨hcurrent, hrows⟩, hhistory⟩
  rw [run_of_writable hwritable, hresult]

/-- Whether or not it can be written, a database that keeps a book keeps one afterwards. -/
theorem exists_keeps_run (h : db.file.contents.Keeps b) (hb : b.HasHistory)
    (hp : p.Asks settings.Allows) :
    ∃ after : Book, (db.run p).2.file.contents.Keeps after ∧ after.HasHistory := by
  cases hwritable : db.writable with
  | true =>
    obtain ⟨contents, hrun, hkeeps, hhistory⟩ := run_eq hwritable h hb hp
    rw [hrun]
    exact ⟨_, hkeeps, hhistory⟩
  | false =>
    rw [run_of_not_writable hwritable]
    exact ⟨b, h, hb⟩

end OpenDatabase

namespace DatabaseFile

variable {file after : DatabaseFile} {access : FileAccess} {hasRoom : Bool} {db : OpenDatabase}
  {b : Book}

/-- Turning the log on, or leaving it, changes nothing else. -/
theorem contents_of_logged (h : file.logged access hasRoom = .ok after) :
    after.contents = file.contents := by
  unfold logged at h
  split_ifs at h
  all_goals rw [← Except.ok.inj h]

/-- A file that is not taken for frozen has a log afterwards exactly if it is shared. -/
theorem hasLog_of_logged (h : file.logged access hasRoom = .ok after)
    (hfrozen : access.frozen = false) : after.hasLog = access.shares := by
  unfold logged at h
  rw [if_neg (by simp [hfrozen])] at h
  split_ifs at h with hshares hroom hlog
  · rw [← Except.ok.inj h, hshares]
  · rw [← Except.ok.inj h]
    simp_all

/-- A file with a log that is shared, or without one that is not, stays as it is. -/
theorem logged_of_hasLog (h : file.hasLog = access.shares) :
    file.logged access hasRoom = .ok file := by
  obtain ⟨contents, hasLog⟩ := file
  cases hshares : access.shares <;> simp_all [logged]

/-- What opening a file comes to: its log is turned on or left, its schema is brought up to date,
and it can be written if it is opened for that and not taken for frozen. -/
theorem opened_eq_ok_iff : file.opened access hasRoom = .ok db ↔
    ∃ logged contents, file.logged access hasRoom = .ok logged ∧
      (file.contents.prepare (obstacle access hasRoom)).2 = .ok contents ∧
      db = ⟨⟨contents, logged.hasLog⟩, access.writes && !access.frozen⟩ := by
  unfold opened
  cases hlogged : file.logged access hasRoom with
  | error failure => simp [bind, Except.bind]
  | ok logged =>
    simp only [bind, Except.bind, contents_of_logged hlogged]
    cases (file.contents.prepare (obstacle access hasRoom)).2 with
    | error failure => simp
    | ok contents => simp [pure, Except.pure, eq_comm]

/-- Opening a file that keeps a book gives a database that keeps it. -/
theorem Keeps.opened (h : file.Keeps b) (hopened : file.opened access hasRoom = .ok db) :
    db.file.contents.Keeps b := by
  obtain ⟨logged, contents, -, hprepare, rfl⟩ := opened_eq_ok_iff.mp hopened
  show contents.Keeps b
  rcases h with h | ⟨hempty, rfl⟩
  · rw [Database.prepare_of_current h.1] at hprepare
    rwa [← Except.ok.inj hprepare]
  · rw [hempty] at hprepare
    cases hobstacle : obstacle access hasRoom with
    | some detail =>
      simp [hobstacle, Database.prepare, Database.empty, Database.currentVersion] at hprepare
    | none =>
      rw [hobstacle] at hprepare
      rw [← Except.ok.inj hprepare]
      exact ⟨rfl, [], rfl, Table.holds_empty⟩

/-- A file that was opened for writing can be opened again, whatever was written into its table. -/
theorem opened_again (hopened : file.opened access hasRoom = .ok db)
    (hwritable : db.writable = true)
    {contents : Database} (hversion : contents.schemaVersion = Database.currentVersion) :
    ({ db.file with contents } : DatabaseFile).opened access hasRoom =
      .ok { db with file.contents := contents } := by
  obtain ⟨logged, prepared, hlogged, -, rfl⟩ := opened_eq_ok_iff.mp hopened
  refine opened_eq_ok_iff.mpr ⟨⟨contents, logged.hasLog⟩, contents, ?_,
    Database.prepare_of_current hversion _, rfl⟩
  have hlog : logged.hasLog = access.shares := hasLog_of_logged hlogged (by simp_all)
  exact logged_of_hasLog hlog

end DatabaseFile

end Store

namespace CommandLine

open Store (Book Database DatabaseFile FileAccess Location OpenDatabase)

/-! ## Files -/

/-- What a file holds keeps a book if it is taken for a database that does. -/
def Content.Keeps (content : Content) (b : Book) : Prop :=
  ∃ file, Workspace.fileOf content = .ok file ∧ file.Keeps b

/-- A file without contents keeps the empty book. -/
theorem Content.keeps_blank : Content.Keeps (.text "") .empty :=
  ⟨.empty, rfl, .inr ⟨rfl, rfl⟩⟩

namespace Workspace

/-- What stands under a path, where a file that is not there counts as one without contents. -/
def contentAt (w : Workspace) (path : Path) : Content := (w.get? path).getD (.text "")

/-- The file under a path keeps a book. -/
def Keeps (w : Workspace) (path : Path) (b : Book) : Prop := (w.contentAt path).Keeps b

variable {w files : Workspace} {path other : Path} {content : Content}

/-- Contents that are written are there. -/
theorem get?_set_self (w : Workspace) (path : Path) (content : Content) :
    (w.set path content).get? path = some content := by
  simp [set, get?]

/-- Other files are as they were. -/
theorem get?_set_ne (w : Workspace) {path other : Path} (content : Content) (h : other ≠ path) :
    (w.set path content).get? other = w.get? other := by
  have hne : (other == path) = false := by simpa using h
  unfold set get?
  rw [List.lookup_cons, hne]
  induction w with
  | nil => rfl
  | cons file rest ih =>
    obtain ⟨third, held⟩ := file
    by_cases hthird : third = path
    · rw [List.filter_cons_of_neg (by simp [hthird]), List.lookup_cons, hthird, hne]
      exact ih
    · rw [List.filter_cons_of_pos (by simp [hthird]), List.lookup_cons, List.lookup_cons]
      cases other == third
      · exact ih
      · rfl

/-- What was written first is not kept. -/
theorem set_set (w : Workspace) (path : Path) (first second : Content) :
    (w.set path first).set path second = w.set path second := by
  simp [set]

/-- Contents that are written stand under their path. -/
theorem contentAt_set_self (w : Workspace) (path : Path) (content : Content) :
    (w.set path content).contentAt path = content := by
  unfold contentAt
  rw [get?_set_self]
  rfl

/-- Writing what stands there changes nothing of what stands anywhere. -/
theorem contentAt_set_contentAt (w : Workspace) (path other : Path) :
    (w.set path (w.contentAt path)).contentAt other = w.contentAt other := by
  by_cases hother : other = path
  · rw [hother, contentAt_set_self]
  · unfold contentAt
    rw [get?_set_ne _ _ hother]

/-! ## Opening -/

/-- Opening a file changes nothing of what stands anywhere. -/
theorem contentAt_openFile (w : Workspace) (path other : Path) (access : FileAccess) :
    (w.openFile path access).1.contentAt other = w.contentAt other := by
  unfold openFile
  split_ifs
  · rfl
  · rfl
  · exact w.contentAt_set_contentAt path other

/-- Opening a database changes nothing of what stands anywhere. -/
theorem contentAt_openDatabase (w : Workspace) (name : String) (other : Path) :
    (w.openDatabase name).1.contentAt other = w.contentAt other := by
  unfold openDatabase
  split
  · rfl
  · rfl
  · split
    · rfl
    · exact w.contentAt_openFile _ other _

/-- What it takes to open a file. -/
theorem openFile_eq_ok_iff {access : FileAccess} {db : OpenDatabase} :
    (w.openFile path access).2 = .ok db ↔
      w.isDirectory path = false ∧ w.isDirectory path.dropLast = true ∧
      ((w.get? path).isSome = true ∨ access.creates = true) ∧
      ∃ file, fileOf (w.contentAt path) = .ok file ∧
        file.opened access (hasRoomNextTo path) = .ok db := by
  unfold openFile contentAt
  split_ifs with hplace hthere
  · -- A directory stands there, or the file would stand in none.
    constructor
    · intro h
      exact nomatch h
    · rintro ⟨hfree, hparent, -⟩
      simp [hfree, hparent] at hplace
  · constructor
    · intro h
      exact nomatch h
    · rintro ⟨-, -, hcreates, -⟩
      cases hfile : w.get? path <;> simp_all
  · have hfree : w.isDirectory path = false ∧ w.isDirectory path.dropLast = true := by
      simpa using hplace
    have hcreates : (w.get? path).isSome = true ∨ access.creates = true := by
      cases hfile : w.get? path <;> simp_all
    simp only [hfree, hcreates, true_and]
    cases fileOf ((w.get? path).getD (.text "")) with
    | error failure => simp [bind, Except.bind]
    | ok file => simp [bind, Except.bind]

/-- A name that leads to a file opens the file. -/
theorem openDatabase_eq_openFile {name : String} {written : List UInt8} {access : FileAccess}
    (hname : Location.ofName? name = some (.file written access))
    (hpath : w.databasePath? written = some path) :
    w.openDatabase name =
      ((w.openFile path access).1, (w.openFile path access).2.map fun db => (some path, db)) := by
  unfold openDatabase
  simp only [hname, hpath]

/-- A database that is kept under a path was opened as the file that the name leads to. -/
theorem exists_of_openDatabase {name : String} {db : OpenDatabase}
    (h : (w.openDatabase name).2 = .ok (some path, db)) :
    ∃ written access, Location.ofName? name = some (.file written access) ∧
      w.databasePath? written = some path ∧ (w.openFile path access).2 = .ok db := by
  cases hname : Location.ofName? name with
  | none => simp [openDatabase, hname] at h
  | some location =>
    cases location with
    | memory writable =>
      simp only [openDatabase, hname] at h
      cases hdb : OpenDatabase.inMemory writable <;> simp [hdb, Except.map] at h
    | file written access =>
      cases hpath : w.databasePath? written with
      | none => simp [openDatabase, hname, hpath] at h
      | some found =>
        rw [openDatabase_eq_openFile hname hpath] at h
        cases hopened : (w.openFile found access).2 with
        | error failure => simp [hopened, Except.map] at h
        | ok opened =>
          rw [hopened] at h
          obtain ⟨hfound, rfl⟩ := Prod.mk.inj (Except.ok.inj h)
          obtain rfl := Option.some.inj hfound
          exact ⟨written, access, rfl, hpath, hopened⟩

/-! ## Where a database is found -/

section Found

variable {first second : Content}

/-- Which paths name directories does not depend on what a file holds. -/
theorem isDirectory_set (hfirst : first ≠ .directory) (hsecond : second ≠ .directory)
    (place : Path) :
    (w.set path first).isDirectory place = (w.set path second).isDirectory place := by
  -- A directory says so itself, which the file does not, or a file is below it, wherever that may
  -- be.
  have hsaid : ((w.set path first).get? place = some .directory) =
      ((w.set path second).get? place = some .directory) := by
    by_cases hplace : place = path
    · rw [hplace, get?_set_self, get?_set_self]
      simp [hfirst, hsecond]
    · rw [get?_set_ne _ _ hplace, get?_set_ne _ _ hplace]
  have hbelow : ((w.set path first).any fun file => place.isPrefixOf file.1 && file.1 ≠ place) =
      (w.set path second).any fun file => place.isPrefixOf file.1 && file.1 ≠ place := by
    unfold set
    rw [List.any_cons, List.any_cons]
  unfold isDirectory
  simp only [hsaid, hbelow]

/-- Nor does it matter where a database is found. -/
theorem databasePath?_set (hfirst : first ≠ .directory) (hsecond : second ≠ .directory)
    (written : List UInt8) :
    (w.set path first).databasePath? written = (w.set path second).databasePath? written := by
  have hstep : (w.set path first).mayStep = (w.set path second).mayStep := by
    funext place name
    have hthere : ((w.set path first).get? place).isNone =
        ((w.set path second).get? place).isNone := by
      by_cases hplace : place = path
      · rw [hplace, get?_set_self, get?_set_self]
        rfl
      · rw [get?_set_ne _ _ hplace, get?_set_ne _ _ hplace]
    unfold mayStep
    rw [isDirectory_set hfirst hsecond, hthere]
  unfold databasePath?
  rw [hstep]

end Found

/-- A file that was opened is there. -/
theorem openFile_fst {access : FileAccess} {db : OpenDatabase}
    (h : (w.openFile path access).2 = .ok db) :
    (w.openFile path access).1 = w.set path (w.contentAt path) := by
  unfold openFile at h ⊢
  split_ifs at h ⊢
  rfl

/-- A name leads to a file under a path, which is opened as a database to be written, and opened
again once it is there. -/
structure Reopens (w : Workspace) (name : String) (path : Path) : Prop where
  /-- The file is opened, and it can be written. -/
  opens : ∃ db, (w.openDatabase name).2 = .ok (some path, db) ∧ db.writable = true
  /-- After that it is opened again. -/
  again : ∃ db, ((w.openDatabase name).1.openDatabase name).2 = .ok (some path, db)

/-- A database that was used can be opened again as often. -/
theorem Reopens.keep {name : String} {db : OpenDatabase} (h : w.Reopens name path)
    (hdb : (w.openDatabase name).2 = .ok (some path, db)) {contents : Database}
    (hversion : contents.schemaVersion = Database.currentVersion) :
    ((w.openDatabase name).1.keep (some path) { db with file.contents := contents }).Reopens name
      path := by
  obtain ⟨⟨same, hsame, hwritable⟩, ⟨second, hsecond⟩⟩ := h
  rw [hdb] at hsame
  obtain rfl : db = same := congrArg Prod.snd (Except.ok.inj hsame)
  obtain ⟨written, access, hname, hpath, hopened⟩ := exists_of_openDatabase hdb
  obtain ⟨-, -, -, file, hfile, hfileOpened⟩ := openFile_eq_ok_iff.mp hopened
  -- The second opening finds the file in a workspace that has it.
  have hfiles : (w.openDatabase name).1 = w.set path (w.contentAt path) := by
    rw [openDatabase_eq_openFile hname hpath]
    exact openFile_fst hopened
  rw [hfiles] at hsecond ⊢
  obtain ⟨written', access', hname', hpath', hopened'⟩ := exists_of_openDatabase hsecond
  rw [hname] at hname'
  obtain ⟨rfl, rfl⟩ := Location.file.inj (Option.some.inj hname')
  obtain ⟨hfree, hparent, -, -⟩ := openFile_eq_ok_iff.mp hopened'
  have hcontent : w.contentAt path ≠ .directory := by
    intro hdirectory
    rw [hdirectory] at hfile
    exact nomatch hfile
  -- So does every later one, as it does not matter what the file holds.
  set kept : DatabaseFile := { db.file with contents }
  have hkept : (Content.database kept) ≠ .directory := by simp
  have hopens : ((w.set path (.database kept)).openDatabase name) =
      (w.set path (.database kept), .ok (some path, { db with file := kept })) := by
    rw [databasePath?_set hcontent hkept] at hpath'
    rw [isDirectory_set hcontent hkept] at hfree hparent
    have hopen : ((w.set path (.database kept)).openFile path access).2 =
        .ok { db with file := kept } := by
      refine openFile_eq_ok_iff.mpr ⟨hfree, hparent, .inl ?_, kept, ?_,
        DatabaseFile.opened_again hfileOpened hwritable hversion⟩
      · rw [get?_set_self]
        rfl
      · rw [contentAt_set_self]
        rfl
    rw [openDatabase_eq_openFile hname hpath', hopen, openFile_fst hopen,
      contentAt_set_self, set_set]
    rfl
  unfold Workspace.keep
  simp only [set_set]
  constructor
  · rw [hopens]
    exact ⟨_, rfl, hwritable⟩
  · rw [hopens, hopens]
    exact ⟨_, rfl⟩

/-! ## Commands -/

/-- The file under a path keeps a book with a history. -/
def KeepsBook (w : Workspace) (path : Path) : Prop := ∃ b, w.Keeps path b ∧ b.HasHistory

/-- A file that is not there keeps the empty book. -/
theorem keepsBook_of_none (h : w.get? path = none) : w.KeepsBook path := by
  refine ⟨.empty, ?_, fun _ => .nil⟩
  unfold Keeps contentAt
  rw [h]
  exact Content.keeps_blank

/-- Opening a file that keeps a book gives a database that keeps it. -/
theorem Keeps.openDatabase {name : String} {b : Book} {db : OpenDatabase} (h : w.Keeps path b)
    (hdb : (w.openDatabase name).2 = .ok (some path, db)) : db.file.contents.Keeps b := by
  obtain ⟨written, access, -, -, hopened⟩ := exists_of_openDatabase hdb
  obtain ⟨-, -, -, file, hfile, hfileOpened⟩ := openFile_eq_ok_iff.mp hopened
  obtain ⟨same, hsame, hkeeps⟩ := h
  rw [hfile] at hsame
  obtain rfl := Except.ok.inj hsame
  exact hkeeps.opened hfileOpened

/-- A database that keeps a book is kept in a file that does. -/
theorem keeps_keep {b : Book} {db : OpenDatabase} (h : db.file.contents.Keeps b) :
    (w.keep (some path) db).Keeps path b := by
  unfold Keeps
  rw [show w.keep (some path) db = w.set path (.database db.file) from rfl, contentAt_set_self]
  exact ⟨db.file, rfl, .inl h⟩

/-- On a file that can be opened again and again and keeps a book, a program that asks for what
settings allow gives what it gives on the book, and the file is left in the same condition with the
book after it. -/
theorem runOver_of_reopens {settings : Settings} {p : Program Store.interface Written}
    (hp : p.Asks settings.Allows) {i : Invocation} {b : Book} (h : w.Reopens i.database path)
    (hkeeps : w.Keeps path b) (hb : b.HasHistory) : ∃ files,
      runOver i w p = ⟨(p.value Book.answer b).1.1, (p.value Book.answer b).1.2, files⟩ ∧
      files.Reopens i.database path ∧ files.Keeps path (p.value Book.answer b).2 := by
  obtain ⟨db, hdb, hwritable⟩ := h.opens
  obtain ⟨contents, hrun, hafter, -⟩ :=
    OpenDatabase.run_eq hwritable (hkeeps.openDatabase hdb) hb hp
  refine ⟨_, ?_, h.keep hdb hafter.1, keeps_keep hafter⟩
  have hopened : w.openDatabase i.database = ((w.openDatabase i.database).1, .ok (some path, db)) :=
    Prod.ext rfl hdb
  unfold runOver
  rw [hopened]
  simp only [hrun]

/-- A program that asks for what settings allow leaves a book in every file that kept one. -/
theorem keepsBook_runOver {settings : Settings} {p : Program Store.interface Written}
    (hp : p.Asks settings.Allows) (i : Invocation) (h : w.KeepsBook path) :
    (runOver i w p).files.KeepsBook path := by
  obtain ⟨b, hkeeps, hhistory⟩ := h
  -- Where the database is not opened, or is not kept, only the opening could have changed a file.
  have hfiles : (w.openDatabase i.database).1.KeepsBook path := by
    refine ⟨b, ?_, hhistory⟩
    unfold Keeps
    rw [contentAt_openDatabase]
    exact hkeeps
  unfold runOver
  rcases hopened : w.openDatabase i.database with ⟨files, failure | ⟨_ | found, db⟩⟩
  · rwa [hopened] at hfiles
  · rwa [hopened] at hfiles
  · by_cases hfound : path = found
    · subst hfound
      obtain ⟨after, hafter, hlater⟩ := OpenDatabase.exists_keeps_run
        (hkeeps.openDatabase (congrArg Prod.snd hopened)) hhistory hp
      exact ⟨after, keeps_keep hafter, hlater⟩
    · rw [hopened] at hfiles
      obtain ⟨before, hbefore, hlater⟩ := hfiles
      refine ⟨before, ?_, hlater⟩
      unfold Keeps contentAt at hbefore ⊢
      show ((files.set found _).get? path).getD _ |>.Keeps before
      rwa [get?_set_ne _ _ hfound]

/-- A command leaves a book in every file that kept one. -/
theorem keepsBook_carryOut (i : Invocation) (h : w.KeepsBook path) :
    (carryOut i w).files.KeepsBook path := by
  unfold carryOut
  cases i.configuration.settings with
  | error e => exact h
  | ok s =>
    cases i.command with
    | generate portfolio count =>
      simp only
      split_ifs
      · exact h
      · exact keepsBook_runOver ((s.asks_issueMany portfolio count).map _) i h
    | parse reference => exact h
    | buckets portfolio => exact keepsBook_runOver ((s.asks_report portfolio).map _) i h
    | backfill portfolio input =>
      simp only
      cases w.readText? input with
      | none => exact h
      | some text =>
        simp only
        cases LegacyRecord.readAll text with
        | error e => exact h
        | ok records => exact keepsBook_runOver ((s.asks_backfill portfolio records).map _) i h

end Workspace

/-- The files after commands, one after the other. -/
def filesAfter (commands : List Invocation) (w : Workspace) : Workspace :=
  commands.foldl (fun w i => (carryOut i w).files) w

/-- Commands leave a book in every file that kept one. -/
theorem Workspace.keepsBook_filesAfter {path : Path} (commands : List Invocation) {w : Workspace}
    (h : w.KeepsBook path) : (filesAfter commands w).KeepsBook path := by
  induction commands generalizing w with
  | nil => exact h
  | cons i commands ih => exact ih (keepsBook_carryOut i h)

end CommandLine

end ReferenceMint
