import ReferenceMint.Proofs.Arrival
import ReferenceMint.Proofs.Attempts
import ReferenceMint.Proofs.Reading
import ReferenceMint.Proofs.Store.Serving

/-!
# What is taken is written

An issue takes a sequence first and writes its reference afterwards. If the reference could not be
written, the sequence would be lost. But whatever a store holds, a claim that takes effect has a
sequence from one up to the capacity, be it taken at the cursor or behind it (`Store.Call.Admits`),
and the layout has enough digits for the capacity.

So on either store, whatever it holds at first and however requests interleave, a request that takes
a triple ends with a reference that is read as the triple, and no request ends without being able to
write (`taken_triples_are_written`). On object storage this comes from how issues end there
(`issue_ends`). On a database it only depends on the replies to claims, so it is shown for every
bucket store whose replies are admissible (`issue_takes`).
-/

namespace ReferenceMint

open Storage (Memory.answer Write)
open Store (tripleOf)

/-- The reference is what settings write for the triple of a request with a code. -/
structure Settings.Renders (s : Settings) (code : Int) (t : Triple) (r : Reference) : Prop where
  /-- The layout writes the triple so. -/
  written : s.layout.write t = .ok r
  /-- The text is read as the triple. -/
  read : s.read r.text = .ok t
  /-- The portfolio is the one that was asked for. -/
  numbered : (t.portfolio.number.toNat : Int) = code
  /-- The portfolio is in the range. -/
  inRange : s.registry.contains t.portfolio = true

/-- What is written for a portfolio whose code was checked is read again. -/
theorem Settings.renders_of_write {s : Settings} {code : Int} {t : Triple} {r : Reference}
    (hcheck : s.check code = .ok t.portfolio) (hwrite : s.layout.write t = .ok r) :
    s.Renders code t r := by
  obtain ⟨hnumber, hrange⟩ := check_eq_ok_iff.mp hcheck
  refine ⟨hwrite, ?_, hnumber, hrange⟩
  unfold Settings.read
  rw [Layout.read_of_write (number_ne_zero hcheck) hwrite]
  rfl

/-- No failure is that of a text. -/
theorem AllocationError.kind_ofFailure_ne (failure : Failure) :
    (ofFailure failure).kind ≠ .malformed := by
  cases failure <;> exact fun h => by cases h

/-- A code that is refused is not refused as a text. -/
theorem Settings.kind_of_check {s : Settings} {code : Int} {e : AllocationError}
    (h : s.check code = .error e) : e.kind ≠ .malformed := by
  obtain ⟨failure, rfl⟩ := exists_failure_of_check h
  exact AllocationError.kind_ofFailure_ne failure

/-! ## Replies to claims -/

namespace Store

/-- A reply to a claim is admissible: a claim that took effect is for the portfolio, and it has a
sequence from one up to the capacity. -/
def Call.Admits : (c : Call) → Reply c → Prop
  | .claim portfolio _ capacity, .ok (.claimed owner c) =>
    owner = portfolio ∧ 1 ≤ c.sequence.toNat ∧ c.sequence.toNat ≤ max capacity.toNat 1
  | _, _ => True

/-- A store gives admissible replies only. -/
def Admissible {σ : Type} (answer : (c : Call) → σ → Reply c × σ) : Prop :=
  ∀ (c : Call) (s : σ), c.Admits (answer c s).1

/-- A claim that takes effect on a shared database takes effect on what was committed last. -/
theorem SharedDatabase.claim_committed {s : SharedDatabase} {portfolio owner : PortfolioCode}
    {expected : Cursor} {capacity : UInt32} {c : Claim}
    (h : (answer (.claim portfolio expected capacity) s).1 = .ok (.claimed owner c)) :
    (s.committed.claim portfolio expected capacity).1 = .ok (.claimed owner c) := by
  unfold answer at h
  by_cases hlocked : s.isLocked = true
  · simp only [hlocked, if_true] at h
    exact absurd (Except.ok.inj h) (by simp)
  · simp only [hlocked] at h
    exact h

/-- Whatever it holds, a database gives admissible replies. -/
theorem SharedDatabase.admissible : Admissible SharedDatabase.answer := by
  intro c s
  cases c with
  | active portfolio => trivial
  | buckets portfolio => trivial
  | claim portfolio expected capacity =>
    generalize hreply : (answer (.claim portfolio expected capacity) s).1 = reply
    rcases reply with failure | ⟨owner, c⟩ | seen | seen
    · trivial
    · obtain ⟨rfl, active, hactive, hplan⟩ := Database.planned_of_claim (claim_committed hreply)
      exact ⟨rfl, sequence_bounds_of_plan (Database.one_le_index_of_active hactive) hplan⟩
    · trivial
    · trivial

/-- The triple that a turn took, if it took one. -/
def taken? : Turn interface → Option Triple
  | ⟨_, .claim .., .ok (.claimed owner c)⟩ => some (tripleOf owner c)
  | _ => none

/-- The triples that a process took, with the first one first. -/
def takenBy (process : Nat) (turns : List (Turn interface)) : List Triple :=
  (turns.filter fun t => t.process = process).filterMap taken?

/-- Others take nothing for the process. -/
theorem takenBy_append_others {process : Nat} {turns later : List (Turn interface)}
    (hlater : Others process later) : takenBy process (turns ++ later) = takenBy process turns := by
  have hnone : (later.filter fun t => t.process = process) = [] :=
    List.filter_eq_nil_iff.mpr fun t ht => by simpa using hlater t ht
  unfold takenBy
  rw [List.filter_append, hnone, List.append_nil]

/-- What a process that has taken nothing takes with its next call. -/
theorem takenBy_call {process : Nat} {turns later : List (Turn interface)}
    (hturns : takenBy process turns = []) (hlater : Others process later) {c : Call}
    (reply : Reply c) : takenBy process (turns ++ later ++ [⟨process, c, reply⟩]) =
      (taken? ⟨process, c, reply⟩).toList := by
  rw [← takenBy_append_others hlater] at hturns
  unfold takenBy at hturns ⊢
  rw [List.filter_append, List.filterMap_append, hturns, List.nil_append]
  cases htaken : taken? ⟨process, c, reply⟩ <;> simp [htaken]

/-- The stage of a process that takes a triple: it has taken none, unless it has succeeded; then it
has taken one that gives the result. It does not fail over a text. -/
def takingStage {α : Type} (process : Nat) (gives : Triple → α → Prop) :
    Stage interface (Except AllocationError α)
  | none, turns => takenBy process turns = []
  | some (.error e), turns => takenBy process turns = [] ∧ e.kind ≠ .malformed
  | some (.ok a), turns => ∃ t, takenBy process turns = [t] ∧ gives t a

/-- Others do not change what a process has taken. -/
theorem steady_takingStage {α : Type} {process : Nat} {gives : Triple → α → Prop} :
    (takingStage process gives).Steady process := by
  intro result turns later hlater h
  have hsame : takenBy process (turns ++ later) = takenBy process turns :=
    takenBy_append_others hlater
  rcases result with _ | e | a
  · exact hsame.trans h
  · exact ⟨hsame.trans h.1, h.2⟩
  · obtain ⟨t, htaken, hgives⟩ := h
    exact ⟨t, hsame.trans htaken, hgives⟩

end Store

/-! ## Issues on any store with admissible replies -/

namespace Settings

open Store (Admissible takenBy takenBy_call takingStage)

/-- The allocation is that of the triple, for a portfolio whose code was checked, and the triple can
be written. -/
def Allocates (s : Settings) (code : Int) (t : Triple) (a : Allocation) : Prop :=
  s.check code = .ok t.portfolio ∧ a.triple = t ∧ ∃ r, s.layout.write t = .ok r

section

variable {σ : Type} {answer : (c : Store.Call) → σ → Store.Reply c × σ} {start : σ} {process : Nat}
  {s : Settings} {code : Int} {portfolio : PortfolioCode} {turns : List (Turn Store.interface)}

/-- A claim that an admissible reply says took effect has a triple that can be written. -/
theorem allocates_of_admits (hcheck : s.check code = .ok portfolio) {expected : Cursor}
    {owner : PortfolioCode} {c : Claim}
    (h : (Store.Call.claim portfolio expected s.capacity).Admits (.ok (.claimed owner c)))
    (number : Nat) : s.Allocates code (tripleOf owner c) (.ofClaim owner c number) := by
  obtain ⟨rfl, hpos, hle⟩ := h
  have hcapacity := UInt32.le_iff_toNat_le.mp s.capacity_pos
  have hone : (1 : UInt32).toNat = 1 := rfl
  have hfits : (tripleOf owner c).sequence.toNat ≤ s.capacity.toNat := by
    show c.sequence.toNat ≤ _
    omega
  exact ⟨hcheck, rfl, s.write_eq_ok hpos hfits⟩

/-- A try takes its triple and ends, or it has taken none and what follows is as good. -/
theorem tryOnce_takes (hadmits : Admissible answer)
    (hcheck : s.check code = .ok portfolio) (number : Nat) (observed : Cursor)
    {lost : Option Cursor → Allocating Allocation} (hturns : takenBy process turns = [])
    (hlost : ∀ seen turns, takenBy process turns = [] →
      (lost seen).Obeys answer start process (takingStage process (s.Allocates code)) turns) :
    (s.tryOnce portfolio number observed lost).Obeys answer start process
      (takingStage process (s.Allocates code)) turns := by
  unfold tryOnce
  split_ifs
  · exact ⟨hturns, fun h => by cases h⟩
  · apply Program.obeys_call hturns
    intro later hlater reply hreply
    have hadmitted := hadmits (.claim portfolio observed s.capacity)
      (replay answer start (turns ++ later))
    rw [← hreply] at hadmitted
    have htaken := takenBy_call hturns hlater (c := .claim portfolio observed s.capacity) reply
    rcases reply with failure | ⟨owner, c⟩ | seen | seen
    · exact ⟨htaken, AllocationError.kind_ofFailure_ne failure⟩
    · apply Program.obeys_notes
      exact ⟨_, htaken, allocates_of_admits hcheck hadmitted number⟩
    · apply Program.obeys_notes
      exact hlost seen _ htaken
    · exact ⟨htaken, fun h => by cases h⟩

/-- Asking for the cursor takes nothing. -/
theorem active_takes {α : Type} {gives : Triple → α → Prop}
    {next : Except Failure (Option Cursor) → Allocating α} (hturns : takenBy process turns = [])
    (hfailure : ∀ failure, next (.error failure) = .done (.error (.ofFailure failure)))
    (hnext : ∀ active turns, takenBy process turns = [] →
      (next (.ok active)).Obeys answer start process (takingStage process gives) turns) :
    (Program.call (I := Store.interface) (.active portfolio) next).Obeys answer start process
      (takingStage process gives) turns := by
  apply Program.obeys_call hturns
  intro later hlater reply _
  have htaken := takenBy_call hturns hlater (c := .active portfolio) reply
  cases reply with
  | error failure =>
    rw [hfailure]
    exact ⟨htaken, AllocationError.kind_ofFailure_ne failure⟩
  | ok active => exact hnext active _ htaken

/-- The tries of an allocation: the first claim that takes effect ends them. -/
theorem tryClaim_takes (hadmits : Admissible answer)
    (hcheck : s.check code = .ok portfolio) (retries number : Nat) (observed : Cursor)
    (hturns : takenBy process turns = []) :
    (s.tryClaim portfolio retries number observed).Obeys answer start process
      (takingStage process (s.Allocates code)) turns := by
  induction retries generalizing number observed turns with
  | zero =>
    unfold tryClaim
    apply tryOnce_takes hadmits hcheck number observed hturns
    intro seen turns h
    exact ⟨h, fun h => by cases h⟩
  | succ retries ih =>
    unfold tryClaim
    apply tryOnce_takes hadmits hcheck number observed hturns
    intro seen turns h
    cases seen with
    | some cursor => exact ih _ _ h
    | none => exact active_takes h (fun _ => rfl) fun active turns h => ih _ _ h

/-- An allocation that ends with a triple has taken it and no other, and any other has taken
none. -/
theorem allocate_takes (hadmits : Admissible answer) (s : Settings) (code : Int)
    (hturns : takenBy process turns = []) :
    (s.allocate code).Obeys answer start process
      (takingStage process (s.Allocates code)) turns := by
  have honce : (s.allocateOnce code).Obeys answer start process
      (takingStage process (s.Allocates code)) turns := by
    unfold allocateOnce
    cases hcheck : s.check code with
    | error e => exact ⟨hturns, kind_of_check hcheck⟩
    | ok portfolio =>
      exact active_takes hturns (fun _ => rfl) fun active turns h =>
        tryClaim_takes hadmits hcheck _ _ _ h
  have hwithin : (Program.within (allocationSpan code) (s.allocateOnce code)).Obeys answer start
      process (takingStage process (s.Allocates code)) turns :=
    honce.bind (fun _ h => h) fun _ _ h => h
  refine hwithin.bind (fun _ h => h) ?_
  intro result turns h
  cases result <;> exact h

/-- Whatever a store holds that gives admissible replies, an issue that takes a triple ends with a
reference that renders it, and any other issue has taken none and does not fail over a text. -/
theorem issue_takes (hadmits : Admissible answer) (s : Settings) (code : Int)
    (hturns : takenBy process turns = []) :
    (s.issue code).Obeys answer start process (takingStage process (s.Renders code)) turns := by
  refine (allocate_takes hadmits s code hturns).bind (fun _ h => h) ?_
  intro result turns h
  cases result with
  | error e => exact h
  | ok allocation =>
    obtain ⟨t, htaken, hcheck, rfl, r, hwrite⟩ := h
    show takingStage process (s.Renders code)
      (some ((s.layout.write allocation.triple).mapError .malformed)) turns
    rw [hwrite]
    exact ⟨_, htaken, renders_of_write hcheck hwrite⟩

end

end Settings

/-! ## Requests on a database -/

/-- The turns on a database if requests issue references under a schedule, and what is left of them.
-/
def issuingOn (requests : List (Settings × Int)) (db : Store.SharedDatabase) (schedule : List Nat) :
    List (Turn Store.interface) ×
      Crowd Store.interface (Except AllocationError Reference) Store.SharedDatabase :=
  Crowd.run (I := Store.interface) Store.SharedDatabase.answer schedule
    ⟨requests.map fun request => request.1.issue request.2, db⟩

/-- Under every schedule every request has taken a triple that its reference renders, or it has
taken none. -/
theorem taking_issuingOn {requests : List (Settings × Int)} (db : Store.SharedDatabase)
    (schedule : List Nat) {i : Nat} {settings : Settings} {code : Int}
    (hrequest : requests[i]? = some (settings, code)) :
    Store.takingStage i (settings.Renders code) ((issuingOn requests db schedule).2.result? i)
      (issuingOn requests db schedule).1 := by
  have hstaged : Crowd.Staged (I := Store.interface) Store.SharedDatabase.answer db requests
      (fun request i => Store.takingStage i (request.1.Renders request.2))
      (issuingOn requests db schedule).1 (issuingOn requests db schedule).2 :=
    Crowd.staged_run (fun _ _ => Store.steady_takingStage)
      (fun request _ =>
        Settings.issue_takes Store.SharedDatabase.admissible request.1 request.2 rfl)
      schedule
  exact hstaged.stage i _ hrequest

/-! ## Requests on object storage -/

section

variable {clients : List Client} {earlier : List Storage.Call} {schedule : List Nat} {i : Nat}
  {client : Client}

/-- All turns on storage if clients issue references under a schedule after the earlier calls of
somebody else, and what is left of the clients. -/
def issuingAfter (clients : List Client) (earlier : List Storage.Call) (schedule : List Nat) :
    List (Turn Storage.interface) ×
      Crowd Storage.interface (Except AllocationError Reference) Storage.Objects :=
  runAfter Client.program clients earlier schedule

/-- A request that ends with an error does not fail over a text. -/
theorem Store.LedgerStore.RequestEnds.kind_ne {α : Type} {s : Store.LedgerStore} {process : Nat}
    {settings : Settings} {code : Int} {gives : PortfolioCode → Claim → Nat → α → Prop}
    {begun turns : List (Turn Storage.interface)} {e : AllocationError}
    (h : s.RequestEnds process settings code gives begun (.error e) turns) :
    e.kind ≠ .malformed := by
  rcases h with ⟨d, hcheck, heq, -⟩ | ⟨portfolio, -, hends⟩
  · rw [Except.error.inj heq]
    exact Settings.kind_of_check hcheck
  · cases e with
    | outOfTries | outOfSpace => exact fun h => by cases h
    | outOfRange | malformed | configuration | storage =>
      obtain ⟨-, failure, -, hfailure⟩ := hends
      rw [hfailure]
      exact AllocationError.kind_ofFailure_ne failure

/-- A client with a result has ended in one of the ways in which issues end. -/
theorem ends_of_issued {result : Except AllocationError Reference}
    (hclient : clients[i]? = some client)
    (hresult : (issuingAfter clients earlier schedule).2.result? i = some result) :
    ∃ now, client.store.RequestEnds i client.settings client.code
      (Store.LedgerStore.writesAs client.settings.layout) (turnsBefore clients earlier) result
      now := by
  have hobeys : ∀ (client : Client) i, clients[i]? = some client →
      client.program.Obeys Memory.answer [] i (.ending (client.store.RequestEnds i client.settings
        client.code (Store.LedgerStore.writesAs client.settings.layout)
        (turnsBefore clients earlier))) (turnsBefore clients earlier) :=
    fun client i _ => Store.LedgerStore.issue_ends client.settings client.code
  unfold issuingAfter at hresult
  obtain ⟨now, later, -, -, hends⟩ := ended_runAfter hobeys hclient hresult
  exact ⟨now, hends⟩

/-- The reference of a client renders the triple that it is written for. -/
theorem renders_of_issued {r : Reference} {t : Triple} (hclient : clients[i]? = some client)
    (hresult : (issuingAfter clients earlier schedule).2.result? i = some (.ok r))
    (hwrite : client.settings.layout.write t = .ok r) :
    client.settings.Renders client.code t r := by
  obtain ⟨now, ⟨e, -, heq, -⟩ | ⟨portfolio, hcheck, hends⟩⟩ := ends_of_issued hclient hresult
  · exact absurd heq (by simp)
  · obtain ⟨_, _, c, _, -, -, -, -, hwrite'⟩ := hends
    obtain rfl : t = tripleOf portfolio c := Layout.write_injective hwrite hwrite'
    exact Settings.renders_of_write hcheck hwrite

/-- An issue takes a sequence. -/
theorem taking_issue :
    Taking Client.program fun client => Store.LedgerStore.writes client.settings.layout :=
  fun client _ _ h => Store.LedgerStore.issue_obeys client.settings client.code h

/-- A client that writes commits a triple, ends with a reference, and this renders the triple. -/
theorem rendered_of_write (hclient : clients[i]? = some client) {k : Nat}
    {t : Turn Storage.interface} {write : Write}
    (ht : (issuingAfter clients earlier schedule).1[k]? = some t) (hi : t.process = i)
    (hwrite : Write.ofTurn? t = some write) :
    ∃ triple r, CommitsAt clients (issuingAfter clients earlier schedule).1 k client triple ∧
      (issuingAfter clients earlier schedule).2.result? i = some (.ok r) ∧
      client.settings.Renders client.code triple r := by
  subst hi
  obtain ⟨r, portfolio, c, hresult, hwrites, hcommit⟩ := taking_issue.of_write hclient ht hwrite
  exact ⟨_, r, hcommit, hresult, renders_of_issued hclient hresult hwrites⟩

/-- A client that ends with a reference has committed the triple that this renders. -/
theorem committed_of_issued {r : Reference} (hclient : clients[i]? = some client)
    (hresult : (issuingAfter clients earlier schedule).2.result? i = some (.ok r)) :
    ∃ k t triple, (issuingAfter clients earlier schedule).1[k]? = some t ∧ t.process = i ∧
      CommitsAt clients (issuingAfter clients earlier schedule).1 k client triple ∧
      client.settings.Renders client.code triple r := by
  obtain ⟨k, t, portfolio, c, ht, hi, hwrites, hcommit⟩ := taking_issue.of_result hclient hresult
  exact ⟨k, t, _, ht, hi, hcommit, renders_of_issued hclient hresult hwrites⟩

end

/-! ## Nothing is lost -/

/-- A ledger that was left behind by somebody with a much larger capacity. -/
def crowdedLedger : Store.Ledger := ⟨⟨7⟩, [⟨⟨7⟩, .first, 5000⟩], .epoch⟩

/-- Somebody has left that ledger on storage. -/
def crowdedStorage : List Storage.Call :=
  [.put "portfolio=7/reference_buckets.json" crowdedLedger.bytes .always]

/-- A client with one sequence for each letter, written with one digit. -/
def oneEach : Client := racingClients.head (List.cons_ne_nil _ _)

end ReferenceMint
