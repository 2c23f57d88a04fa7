import ReferenceMint.Proofs.Batch.Places
import ReferenceMint.Proofs.Committing
import ReferenceMint.Proofs.Permanence

/-!
# Batches among others

Clients allocate, issue and work off batches through stores on one object storage, each with
settings of its own, and their calls on storage interleave in any order (`working`). Each write of a
client commits a claim of the client (`commitsFrom_working`), and a client with a result has ended
in one of the ways in which its task ends (`ends_of_working`).

An assigned reference of a batch goes back to a turn that committed its claim, and a kept one to a
turn that read buckets which had issued it. After either nobody commits the claim again, so the
references of a report are distinct, and what is kept is never handed out afterwards
(`batches_never_share`).
-/

namespace ReferenceMint

open Storage (Memory.answer Write stored)
open Store (LedgerStore Tidy)

/-! ## Runs of all kinds of clients -/

/-- What a client may be about. -/
inductive Task where
  /-- It allocates a sequence. -/
  | allocate
  /-- It issues a reference. -/
  | issue
  /-- It works off a batch of records. -/
  | backfill (records : List LegacyRecord)

/-- What comes of a task. -/
inductive TaskResult where
  /-- The allocation ended. -/
  | allocated (result : Except AllocationError Allocation)
  /-- The issue ended. -/
  | issued (result : Except AllocationError Reference)
  /-- The batch ended. -/
  | backfilled (result : Except AllocationError BatchReport)
deriving DecidableEq

/-- What is done for a task. -/
def Task.program (s : Settings) (code : Int) : Task → Program Store.interface TaskResult
  | .allocate => (s.allocate code).map .allocated
  | .issue => (s.issue code).map .issued
  | .backfill records => (s.backfill code records).map .backfilled

/-- A client with a task. -/
structure Job where
  client : Client
  task : Task

/-- What the client does on storage for its task. -/
def Job.program (job : Job) : Program Storage.interface TaskResult :=
  job.client.store.program (job.task.program job.client.settings job.client.code)

/-- The turns of somebody who comes before all clients. -/
def turnsBeforeJobs (jobs : List Job) (earlier : List Storage.Call) :
    List (Turn Storage.interface) :=
  turnsBefore (jobs.map Job.client) earlier

/-- All turns on storage if clients work under a schedule after the earlier calls of somebody else,
and what is left of the clients. -/
def working (jobs : List Job) (earlier : List Storage.Call) (schedule : List Nat) :
    List (Turn Storage.interface) × Crowd Storage.interface TaskResult Storage.Objects :=
  let run := Crowd.run (I := Storage.interface) Memory.answer schedule
    ⟨jobs.map Job.program, stored (turnsBeforeJobs jobs earlier)⟩
  (turnsBeforeJobs jobs earlier ++ run.1, run.2)

/-- The reference is one that the result hands out as new. -/
def TaskResult.Gives (l : Layout) : TaskResult → Reference → Prop
  | .allocated (.ok a), r => l.write a.triple = .ok r
  | .issued (.ok given), r => given = r
  | .backfilled (.ok report), r => ∃ e ∈ report.entries, e.outcome = .assigned r
  | _, _ => False

/-- How a task ends. -/
def TaskEnds (client : Client) (process : Nat) (begun : List (Turn Storage.interface)) :
    TaskResult → List (Turn Storage.interface) → Prop
  | .allocated result, turns => client.store.RequestEnds process client.settings client.code
      LedgerStore.allocatesAs begun result turns
  | .issued result, turns => client.store.RequestEnds process client.settings client.code
      (LedgerStore.writesAs client.settings.layout) begun result turns
  | .backfilled result, turns =>
    client.store.BatchEnds process client.settings begun.length result turns

section

variable {jobs : List Job} {earlier : List Storage.Call} {schedule : List Nat} {i : Nat} {job : Job}

/-- A task asks for what the settings allow. -/
theorem asks_program (s : Settings) (code : Int) (task : Task) :
    (task.program s code).Asks s.Allows := by
  cases task with
  | allocate => exact (s.asks_allocate code).map _
  | issue => exact (s.asks_issue code).map _
  | backfill records => exact (s.asks_backfill code records).map _

/-- Whatever others do, a task ends so. -/
theorem program_ends (job : Job) (process : Nat) (begun : List (Turn Storage.interface)) :
    job.program.Obeys Memory.answer [] process
      (.ending (TaskEnds job.client process begun)) begun := by
  obtain ⟨client, task⟩ := job
  unfold Job.program
  cases task with
  | allocate =>
    unfold Task.program Program.map
    rw [LedgerStore.program_bind]
    exact (LedgerStore.allocate_ends client.settings client.code).bind_ending fun _ _ hends => hends
  | issue =>
    unfold Task.program Program.map
    rw [LedgerStore.program_bind]
    exact (LedgerStore.issue_ends client.settings client.code).bind_ending fun _ _ hends => hends
  | backfill records =>
    unfold Task.program Program.map
    rw [LedgerStore.program_bind]
    exact (LedgerStore.backfill_ends client.settings client.code records).bind_ending
      fun _ _ hends => hends

/-- The client of a job has the place of the job. -/
theorem client_of_job (h : jobs[i]? = some job) : (jobs.map Job.client)[i]? = some job.client := by
  rw [List.getElem?_map, h]
  rfl

/-- The turns before are none of a client's. -/
theorem others_turnsBeforeJobs (h : jobs[i]? = some job) :
    Others i (turnsBeforeJobs jobs earlier) :=
  others_turnsBefore (client_of_job h)

/-- Under every schedule every client is at the stage that its program keeps to. -/
theorem stagedAfter_working (stage : Job → Nat → Stage Storage.interface TaskResult)
    (steady : ∀ job i, (stage job i).Steady i)
    (obeys : ∀ (job : Job) i, jobs[i]? = some job → job.program.Obeys Memory.answer [] i
      (stage job i) (turnsBeforeJobs jobs earlier)) (schedule : List Nat) :
    Crowd.StagedAfter (I := Storage.interface) Memory.answer [] jobs stage
      (turnsBeforeJobs jobs earlier)
      (Crowd.run (I := Storage.interface) Memory.answer schedule
        ⟨jobs.map Job.program, stored (turnsBeforeJobs jobs earlier)⟩).1
      (working jobs earlier schedule).2 :=
  Crowd.staged_run_after steady (genuine_turnsBefore _ earlier) obeys schedule

/-- Under every schedule clients only write to commit claims. -/
theorem committing_working (jobs : List Job) (earlier : List Storage.Call) (schedule : List Nat) :
    Crowd.StagedAfter (I := Storage.interface) Memory.answer [] jobs
      (fun job i _ turns => job.client.store.OnlyCommits i job.client.settings.capacity turns)
      (turnsBeforeJobs jobs earlier)
      (Crowd.run (I := Storage.interface) Memory.answer schedule
        ⟨jobs.map Job.program, stored (turnsBeforeJobs jobs earlier)⟩).1
      (working jobs earlier schedule).2 := by
  apply stagedAfter_working
  · intro job i
    exact LedgerStore.onlyCommits_steady
  · intro job i hjob
    exact LedgerStore.program_commits (asks_program job.client.settings job.client.code job.task)
      (LedgerStore.onlyCommits_of_others (others_turnsBeforeJobs hjob))

/-- The turns of clients that work are genuine. -/
theorem genuine_working (jobs : List Job) (earlier : List Storage.Call) (schedule : List Nat) :
    Genuine (I := Storage.interface) Memory.answer [] (working jobs earlier schedule).1 :=
  (committing_working jobs earlier schedule).genuine

/-- Every write of a client commits a claim of the client. -/
theorem commitsFrom_working (jobs : List Job) (earlier : List Storage.Call) (schedule : List Nat) :
    CommitsFrom (jobs.map Job.client) (working jobs earlier schedule).1
      (turnsBeforeJobs jobs earlier).length := by
  intro k t write hk ht hwrite
  have hstaged := committing_working jobs earlier schedule
  have hmem := mem_drop_of_getElem? ht hk
  unfold working at hmem
  rw [List.drop_left] at hmem
  obtain ⟨job, hjob⟩ := hstaged.present t hmem
  obtain ⟨portfolio, expected, c, hcommits⟩ :=
    hstaged.stage _ job hjob k t write ht rfl hwrite
  exact ⟨job.client, _, t, write, portfolio, expected, c, ht, hwrite, client_of_job hjob, rfl,
    hcommits⟩

/-- A client with a result has ended in one of the ways in which its task ends. -/
theorem ends_of_working {result : TaskResult} (hjob : jobs[i]? = some job)
    (hresult : (working jobs earlier schedule).2.result? i = some result) :
    ∃ now, now <+: (working jobs earlier schedule).1 ∧
      TaskEnds job.client i (turnsBeforeJobs jobs earlier) result now := by
  have hstaged := stagedAfter_working
    (fun job i => .ended i (TaskEnds job.client i (turnsBeforeJobs jobs earlier)))
    (fun _ _ => Stage.steady_ended)
    (fun job i _ => (program_ends job i (turnsBeforeJobs jobs earlier)).ended) schedule
  have hstage := hstaged.stage i job hjob
  rw [hresult] at hstage
  obtain ⟨now, later, hturns, -, hends⟩ := hstage
  exact ⟨now, ⟨later, hturns.symm⟩, hends⟩

/-! ## References -/

/-- A turn of a client that issues a reference commits the claim of its triple. -/
theorem commitsAt_of_issuedAt {portfolio : PortfolioCode} {turns : List (Turn Storage.interface)}
    {k : Nat} {r : Reference} (hjob : jobs[i]? = some job)
    (h : job.client.store.IssuedAt i job.client.settings portfolio turns k r) :
    ∃ t triple, turns[k]? = some t ∧ t.process = i ∧
      CommitsAt (jobs.map Job.client) turns k job.client triple ∧ triple.portfolio = portfolio ∧
      job.client.settings.layout.write triple = .ok r := by
  obtain ⟨t, write, expected, c, ht, rfl, hwrite, hcommits, hr⟩ := h
  exact ⟨t, _, ht, rfl,
    ⟨t, write, portfolio, expected, c, ht, hwrite, client_of_job hjob, rfl, hcommits⟩, rfl, hr⟩

/-- A report was made of entries that are placed among the turns. -/
theorem placed_of_report {report : BatchReport} (hjob : jobs[i]? = some job)
    (hreport : (working jobs earlier schedule).2.result? i = some (.backfilled (.ok report))) :
    ∃ entries seen n, report.entries = entries.reverse ∧
      job.client.store.Placed i job.client.settings report.portfolio
        (working jobs earlier schedule).1 (turnsBeforeJobs jobs earlier).length entries seen
        n := by
  obtain ⟨now, ⟨later, hturns⟩, entries, seen, hentries, n, -, hplaced⟩ :=
    ends_of_working hjob hreport
  rw [← hturns]
  exact ⟨entries, seen, n, hentries, hplaced.append⟩

/-- Whatever a client hands out as new, it has issued in one of its turns. -/
theorem issuedAt_of_gives {result : TaskResult} {r : Reference} (hjob : jobs[i]? = some job)
    (hresult : (working jobs earlier schedule).2.result? i = some result)
    (hgives : result.Gives job.client.settings.layout r) :
    ∃ portfolio k, job.client.store.IssuedAt i job.client.settings portfolio
      (working jobs earlier schedule).1 k r := by
  obtain ⟨now, ⟨later, hturns⟩, hends⟩ := ends_of_working hjob hresult
  rw [← hturns]
  cases result with
  | allocated result =>
    rcases result with e | a
    · exact hgives.elim
    · obtain ⟨_, -, hfailed, -⟩ | ⟨portfolio, -, hends⟩ := hends
      · exact absurd hfailed (by simp)
      · obtain ⟨-, k, -, hissued⟩ := LedgerStore.issuedAt_of_takeEnds hends (r := r) (by
          rintro c tries rfl
          exact hgives)
        exact ⟨portfolio, k, hissued.append⟩
  | issued result =>
    rcases result with e | given
    · exact hgives.elim
    · obtain rfl : given = r := hgives
      obtain ⟨_, -, hfailed, -⟩ | ⟨portfolio, -, hends⟩ := hends
      · exact absurd hfailed (by simp)
      · obtain ⟨-, k, -, hissued⟩ := LedgerStore.issuedAt_of_takeEnds hends fun _ _ hr => hr
        exact ⟨portfolio, k, hissued.append⟩
  | backfilled result =>
    rcases result with e | report
    · exact hgives.elim
    · obtain ⟨e, he, houtcome⟩ := hgives
      obtain ⟨entries, seen, hentries, n, -, hplaced⟩ := hends
      rw [hentries, List.mem_reverse] at he
      have hturn := hplaced.hasTurn he
      rw [houtcome] at hturn
      obtain ⟨k, -, -, hissued⟩ := hturn
      exact ⟨report.portfolio, k, hissued.append⟩

/-- A turn of a client does not come before all clients. -/
theorem length_turnsBeforeJobs_le {k : Nat} {t : Turn Storage.interface}
    (ht : (working jobs earlier schedule).1[k]? = some t) (hjob : jobs[t.process]? = some job) :
    (turnsBeforeJobs jobs earlier).length ≤ k := by
  by_contra hlt
  unfold working at ht
  rw [List.getElem?_append_left (Nat.lt_of_not_le hlt)] at ht
  exact others_turnsBeforeJobs hjob t (List.mem_of_getElem? ht) rfl

/-- The turns before all clients come first. -/
theorem take_working (jobs : List Job) (earlier : List Storage.Call) (schedule : List Nat) :
    (working jobs earlier schedule).1.take (turnsBeforeJobs jobs earlier).length =
      turnsBeforeJobs jobs earlier :=
  List.take_left

section

variable (htidy : ∀ portfolio rows, job.client.store.heldBuckets portfolio
  (stored (turnsBeforeJobs jobs earlier)) = .ok rows → Tidy portfolio rows)

include htidy

/-- Once a client has seen a reference as issued, nobody commits it in the same folder. -/
theorem write_ne_of_seesIssued {layout layout' : Layout} {portfolio : PortfolioCode} {k l : Nat}
    {r : Reference} (hjob : jobs[i]? = some job)
    (hsees : job.client.store.SeesIssued i layout portfolio (working jobs earlier schedule).1 k r)
    (hkl : k ≤ l) {client : Client} {triple : Triple}
    (h : CommitsAt (jobs.map Job.client) (working jobs earlier schedule).1 l client triple)
    (hfolder : client.store.folder = job.client.store.folder) : layout'.write triple ≠ .ok r := by
  intro hwritten
  have hgenuine := genuine_working jobs earlier schedule
  obtain ⟨data, ledger, t, hget, hdecode, hportfolio, hissued, hwrite⟩ := hsees
  have hrows := heldBuckets_of_get hgenuine hget hdecode
  have htidy' := htidy portfolio
  rw [← take_working jobs earlier schedule] at htidy'
  have hne : triple ≠ t := h.ne_of_issued hgenuine (commitsFrom_working jobs earlier schedule)
    htidy' (length_turnsBeforeJobs_le hget hjob) hkl hrows hportfolio hissued hfolder
  exact hne (Layout.write_injective hwritten hwrite)

/-- A client does not issue a reference in two turns. -/
theorem not_issuedAt_of_issuedAt {portfolio : PortfolioCode} {k l : Nat} {r : Reference}
    (hjob : jobs[i]? = some job) (hkl : k < l)
    (h : job.client.store.IssuedAt i job.client.settings portfolio
      (working jobs earlier schedule).1 k r) :
    ¬ job.client.store.IssuedAt i job.client.settings portfolio (working jobs earlier schedule).1 l
      r := by
  intro h'
  obtain ⟨t, triple, ht, rfl, hcommit, rfl, hwrite⟩ := commitsAt_of_issuedAt hjob h
  obtain ⟨_, triple', -, -, hcommit', hportfolio, hwrite'⟩ := commitsAt_of_issuedAt hjob h'
  have htidy' := htidy triple.portfolio
  rw [← take_working jobs earlier schedule] at htidy'
  have hbefore : triple.Before triple' := hcommit.before (genuine_working jobs earlier schedule)
    (commitsFrom_working jobs earlier schedule) htidy' (length_turnsBeforeJobs_le ht hjob) hkl
    hcommit' rfl hportfolio.symm
  exact hbefore.ne (Layout.write_injective hwrite hwrite')

/-- The references of a report are distinct. -/
theorem nodup_of_report {report : BatchReport} (hjob : jobs[i]? = some job)
    (hreport : (working jobs earlier schedule).2.result? i = some (.backfilled (.ok report))) :
    (report.referenced.map Prod.snd).Nodup := by
  obtain ⟨entries, seen, n, hentries, hplaced⟩ := placed_of_report hjob hreport
  rw [Settings.map_snd_referenced, hentries, List.filterMap_reverse, hplaced.filterMap_reference?,
    List.nodup_reverse]
  apply hplaced.nodup
  · intro k l r _ hkl hissued
    exact not_issuedAt_of_issuedAt htidy hjob hkl hissued
  · intro k l r _ hkl hsees hissued
    obtain ⟨_, triple, -, -, hcommit, -, hwrite⟩ := commitsAt_of_issuedAt hjob hissued
    exact write_ne_of_seesIssued htidy hjob hsees (Nat.le_of_lt hkl) hcommit rfl hwrite

end

end

/-- No batch hands one reference to two records. Whatever settings clients have, whatever they do
and however their calls on storage interleave, the references of a report are distinct. Each one
that a record keeps was seen as issued in a turn of the client, and whoever else hands it out as new
has committed it before. For from a turn on in which a client has seen a reference as issued, nobody
commits it to a ledger of the same folder. And all that a client hands out as new, as an allocation,
as a reference, or as one assigned to a record, it has committed in a turn of its own.

Storage may hold anything before, as long as the buckets of its ledgers are tidy, as those that
stores write are. -/
theorem batches_never_share (jobs : List Job) (earlier : List Storage.Call) (schedule : List Nat)
    (htidy : ∀ job ∈ jobs, ∀ portfolio rows, job.client.store.heldBuckets portfolio
      (stored (turnsBeforeJobs jobs earlier)) = .ok rows → Tidy portfolio rows) :
    (∀ (i : Nat) report,
      (working jobs earlier schedule).2.result? i = some (.backfilled (.ok report)) →
      (report.referenced.map Prod.snd).Nodup) ∧
    (∀ (i : Nat) job report e r, jobs[i]? = some job →
      (working jobs earlier schedule).2.result? i = some (.backfilled (.ok report)) →
      e ∈ report.entries → e.outcome = .kept r →
      ∃ k, job.client.store.SeesIssued i job.client.settings.layout report.portfolio
          (working jobs earlier schedule).1 k r ∧
        ∀ (j : Nat) other result, jobs[j]? = some other →
          other.client.store.folder = job.client.store.folder →
          (working jobs earlier schedule).2.result? j = some result →
          result.Gives other.client.settings.layout r →
          ∃ l t triple, l < k ∧ (working jobs earlier schedule).1[l]? = some t ∧ t.process = j ∧
            CommitsAt (jobs.map Job.client) (working jobs earlier schedule).1 l other.client
              triple ∧
            other.client.settings.layout.write triple = .ok r) ∧
    (∀ (i : Nat) job portfolio k r, jobs[i]? = some job →
      job.client.store.SeesIssued i job.client.settings.layout portfolio
        (working jobs earlier schedule).1 k r →
      ∀ l client triple (layout : Layout), k ≤ l →
        CommitsAt (jobs.map Job.client) (working jobs earlier schedule).1 l client triple →
        client.store.folder = job.client.store.folder → layout.write triple ≠ .ok r) ∧
    (∀ (i : Nat) job result r, jobs[i]? = some job →
      (working jobs earlier schedule).2.result? i = some result →
      result.Gives job.client.settings.layout r →
      ∃ k t triple, (working jobs earlier schedule).1[k]? = some t ∧ t.process = i ∧
        CommitsAt (jobs.map Job.client) (working jobs earlier schedule).1 k job.client triple ∧
        job.client.settings.layout.write triple = .ok r) := by
  have hseen : ∀ (i : Nat) job portfolio k r, jobs[i]? = some job →
      job.client.store.SeesIssued i job.client.settings.layout portfolio
        (working jobs earlier schedule).1 k r →
      ∀ l client triple (layout : Layout), k ≤ l →
        CommitsAt (jobs.map Job.client) (working jobs earlier schedule).1 l client triple →
        client.store.folder = job.client.store.folder → layout.write triple ≠ .ok r := by
    intro i job portfolio k r hjob hsees l client triple layout hkl h hfolder
    exact write_ne_of_seesIssued (htidy job (List.mem_of_getElem? hjob)) hjob hsees hkl h hfolder
  have hgiven : ∀ (i : Nat) job result r, jobs[i]? = some job →
      (working jobs earlier schedule).2.result? i = some result →
      result.Gives job.client.settings.layout r →
      ∃ k t triple, (working jobs earlier schedule).1[k]? = some t ∧ t.process = i ∧
        CommitsAt (jobs.map Job.client) (working jobs earlier schedule).1 k job.client triple ∧
        job.client.settings.layout.write triple = .ok r := by
    intro i job result r hjob hresult hgives
    obtain ⟨portfolio, k, hissued⟩ := issuedAt_of_gives hjob hresult hgives
    obtain ⟨t, triple, ht, hi, hcommit, -, hwrite⟩ := commitsAt_of_issuedAt hjob hissued
    exact ⟨k, t, triple, ht, hi, hcommit, hwrite⟩
  refine ⟨?_, ?_, hseen, hgiven⟩
  · intro i report hreport
    obtain ⟨job, hjob⟩ := (committing_working jobs earlier schedule).staffed i _ hreport
    exact nodup_of_report (htidy job (List.mem_of_getElem? hjob)) hjob hreport
  · intro i job report e r hjob hreport he hkept
    obtain ⟨entries, seen, n, hentries, hplaced⟩ := placed_of_report hjob hreport
    rw [hentries, List.mem_reverse] at he
    have hturn := hplaced.hasTurn he
    rw [hkept] at hturn
    obtain ⟨k, -, -, hsees⟩ := hturn
    refine ⟨k, hsees, fun j other result hother hfolder hresult hgives => ?_⟩
    obtain ⟨l, t, triple, ht, hj, hcommit, hwrite⟩ := hgiven j other result r hother hresult hgives
    have hlt : l < k := by
      by_contra hge
      exact hseen i job _ k r hjob hsees l _ triple _ (Nat.le_of_not_lt hge) hcommit hfolder hwrite
    exact ⟨l, t, triple, hlt, ht, hj, hcommit, hwrite⟩

/-- A client for three sequences of each letter of the portfolio seven. -/
def clientOfThree : Client := clientOfSeven (.ofDigits 1) 3 (by decide)

/-- A batch, and two clients beside it. -/
def batchAndTwo : List Job :=
  [⟨clientOfThree, .backfill [⟨"first", none⟩, ⟨"second", some " 7A1 "⟩, ⟨"third", some "7A3"⟩,
      ⟨"fourth", some "7A1"⟩, ⟨"fifth", some ""⟩]⟩,
    ⟨clientOfThree, .issue⟩, ⟨clientOfThree, .allocate⟩]

/-- The batch loses its first try to the second client, and the third client allocates in the
middle of it. -/
def batchAmidTwo : List Nat :=
  [0, 1, 1, 1, 0, 0, 0, 0, 0, 0, 0] ++ [2, 2, 2, 2, 2] ++ [0, 0, 0, 0, 0, 0, 0, 0, 0]

/-- The report of the batch. -/
def reportAmidTwo : BatchReport :=
  { portfolio := ⟨7⟩
    entries := [⟨"first", .assigned ⟨"7A2"⟩⟩, ⟨"second", .kept ⟨"7A1"⟩⟩, ⟨"third", .kept ⟨"7A3"⟩⟩,
      ⟨"fourth", .failed "reference 7A1 appears more than once"⟩, ⟨"fifth", .assigned ⟨"7B1"⟩⟩]
    unprocessed := 0
    halted := none }

/-- The references of the batch are distinct, and the third client has committed the one that it
allocated before the batch saw it as issued. -/
theorem batches_never_share_amid_two :
    (working batchAndTwo [] batchAmidTwo).2.result? 0 = some (.backfilled (.ok reportAmidTwo)) ∧
    (reportAmidTwo.referenced.map Prod.snd).Nodup ∧
    ∃ k, clientOfThree.store.SeesIssued 0 clientOfThree.settings.layout ⟨7⟩
        (working batchAndTwo [] batchAmidTwo).1 k ⟨"7A3"⟩ ∧
      ∃ l t triple, l < k ∧ (working batchAndTwo [] batchAmidTwo).1[l]? = some t ∧ t.process = 2 ∧
        CommitsAt (batchAndTwo.map Job.client) (working batchAndTwo [] batchAmidTwo).1 l
          clientOfThree triple ∧
        clientOfThree.settings.layout.write triple = .ok ⟨"7A3"⟩ := by
  obtain ⟨hbatch, hallocated⟩ :
      (working batchAndTwo [] batchAmidTwo).2.result? 0 = some (.backfilled (.ok reportAmidTwo)) ∧
      (working batchAndTwo [] batchAmidTwo).2.result? 2 =
        some (.allocated (.ok (.ofClaim ⟨7⟩ ⟨⟨0⟩, 3, .opens ⟨1⟩⟩ 1))) := by
    decide +kernel
  have htidy : ∀ job ∈ batchAndTwo, ∀ portfolio rows, job.client.store.heldBuckets portfolio
      (stored (turnsBeforeJobs batchAndTwo [])) = .ok rows → Tidy portfolio rows := by
    intro job _ portfolio rows hrows
    obtain rfl := Except.ok.inj hrows
    exact Store.tidy_nil portfolio
  obtain ⟨hdistinct, hkept, -, -⟩ := batches_never_share batchAndTwo [] batchAmidTwo htidy
  obtain ⟨k, hsees, hgiven⟩ :=
    hkept 0 _ _ ⟨"third", .kept ⟨"7A3"⟩⟩ ⟨"7A3"⟩ rfl hbatch (by decide) rfl
  exact ⟨hbatch, hdistinct 0 _ hbatch, k, hsees, hgiven 2 _ _ rfl rfl hallocated rfl⟩

end ReferenceMint
