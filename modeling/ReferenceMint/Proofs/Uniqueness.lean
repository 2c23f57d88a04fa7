import ReferenceMint.Proofs.Issuing
import ReferenceMint.Proofs.Store.History

/-!
# No reference is issued twice

Clients issue references through stores on one object storage. Each has settings of its own, so
capacities and widths may differ, and their calls on storage interleave in any order; a client that
gets no turn any more has been dropped.

Every write commits a claim of one client (`CommitsAt`). The writes to one ledger, taken in their
order, form a history of its buckets (`history_take`), and along a history claims never repeat.
So no two commits to the ledgers of one folder have the same triple, and with the triples the
references differ, whatever the widths (`references_unique`).
-/

namespace ReferenceMint

open Storage (Memory.answer Write stored stored_take_succ)
open Store (LedgerStore History tripleOf)

/-- Somebody who issues a reference. -/
structure Client where
  settings : Settings
  store : LedgerStore
  /-- The code of the portfolio. -/
  code : Int

/-- What the client does on storage. -/
def Client.program (client : Client) :
    Program Storage.interface (Except AllocationError Reference) :=
  client.store.program (client.settings.issue client.code)

/-- The turn at the place `k` commits a claim of the triple for the client. -/
def CommitsAt (clients : List Client) (turns : List (Turn Storage.interface)) (k : Nat)
    (client : Client) (triple : Triple) : Prop :=
  ∃ t write portfolio expected c, turns[k]? = some t ∧ Write.ofTurn? t = some write ∧
    clients[t.process]? = some client ∧ triple = tripleOf portfolio c ∧
    client.store.Commits portfolio expected client.settings.capacity (stored (turns.take k)) write c

section

variable {clients : List Client} {turns : List (Turn Storage.interface)}

/-- A turn commits at most one claim. -/
theorem CommitsAt.unique {k : Nat} {client client' : Client} {triple triple' : Triple}
    (h : CommitsAt clients turns k client triple) (h' : CommitsAt clients turns k client' triple') :
    client = client' ∧ triple = triple' := by
  obtain ⟨t, write, portfolio, expected, c, ht, hwrite, hclient, rfl, hcommits⟩ := h
  obtain ⟨t', write', portfolio', expected', c', ht', hwrite', hclient', rfl, hcommits'⟩ := h'
  obtain rfl : t = t' := Option.some.inj (ht.symm.trans ht')
  obtain rfl : write = write' := Option.some.inj (hwrite.symm.trans hwrite')
  obtain rfl : client = client' := Option.some.inj (hclient.symm.trans hclient')
  -- The path tells the portfolio, and what storage holds under it tells the claim.
  obtain rfl : portfolio = portfolio' :=
    (LedgerStore.path_injective (hcommits.path.symm.trans hcommits'.path)).2
  obtain ⟨ledger, htakes, -⟩ := hcommits.taken
  obtain ⟨ledger', htakes', -⟩ := hcommits'.taken
  exact ⟨rfl, congrArg (tripleOf portfolio) (htakes.claim_eq htakes')⟩

/-- After `n` turns the buckets that storage holds have a history, and all that was committed to
them is in it. -/
def HistoryAt (clients : List Client) (turns : List (Turn Storage.interface)) (s : LedgerStore)
    (portfolio : PortfolioCode) (n : Nat) : Prop :=
  ∃ claims rows, s.heldBuckets portfolio (stored (turns.take n)) = .ok rows ∧
    History portfolio claims rows ∧
    ∀ k < n, ∀ client triple, CommitsAt clients turns k client triple →
      client.store.folder = s.folder → triple.portfolio = portfolio →
      ∃ c ∈ claims, triple = tripleOf portfolio c

variable {s : LedgerStore} {portfolio : PortfolioCode} {n : Nat}

/-- A turn that commits nothing to the ledger leaves it with its history. -/
theorem HistoryAt.succ_of_not_commit (h : HistoryAt clients turns s portfolio n)
    (hsame : s.heldBuckets portfolio (stored (turns.take (n + 1))) =
      s.heldBuckets portfolio (stored (turns.take n)))
    (hnot : ∀ client triple, CommitsAt clients turns n client triple →
      client.store.folder = s.folder → triple.portfolio ≠ portfolio) :
    HistoryAt clients turns s portfolio (n + 1) := by
  obtain ⟨claims, rows, hrows, hhistory, hold⟩ := h
  refine ⟨claims, rows, hsame.trans hrows, hhistory, ?_⟩
  intro k hk client triple hcommit hfolder hportfolio
  rcases Nat.lt_succ_iff_lt_or_eq.mp hk with hk | rfl
  · exact hold k hk client triple hcommit hfolder hportfolio
  · exact absurd hportfolio (hnot client triple hcommit hfolder)

/-- A turn that commits a claim to the ledger adds it to the history. -/
theorem HistoryAt.succ_of_commit (h : HistoryAt clients turns s portfolio n) {client : Client}
    {expected : Cursor} {write : Write} {c : Claim}
    (hcommit : CommitsAt clients turns n client (tripleOf portfolio c))
    (hfolder : s.folder = client.store.folder)
    (hcommits : client.store.Commits portfolio expected client.settings.capacity
      (stored (turns.take n)) write c)
    (happlied : stored (turns.take (n + 1)) = write.applied (stored (turns.take n))) :
    HistoryAt clients turns s portfolio (n + 1) := by
  obtain ⟨claims, rows, hrows, hhistory, hold⟩ := h
  rw [LedgerStore.heldBuckets_eq_of_folder hfolder] at hrows
  obtain ⟨hclaim, hafter⟩ := hcommits.of_tidy hrows hhistory.tidy
  rw [← LedgerStore.heldBuckets_eq_of_folder hfolder, ← happlied] at hafter
  -- Settings have no capacity at which a claim leaves no trace.
  have hcapacity := client.settings.toNat_capacity_lt
  refine ⟨c :: claims, _, hafter, hhistory.claim (by omega) hclaim, ?_⟩
  intro k hk other triple hother hsame hportfolio
  rcases Nat.lt_succ_iff_lt_or_eq.mp hk with hk | rfl
  · obtain ⟨d, hd, heq⟩ := hold k hk other triple hother hsame hportfolio
    exact ⟨d, List.mem_cons_of_mem c hd, heq⟩
  · exact ⟨c, List.mem_cons_self, (hother.unique hcommit).2⟩

/-- After every turn all buckets that storage holds have a history. -/
theorem history_take (hgenuine : Genuine (I := Storage.interface) Memory.answer [] turns)
    (hcommits : ∀ k t write, turns[k]? = some t → Write.ofTurn? t = some write →
      ∃ client triple, CommitsAt clients turns k client triple)
    (s : LedgerStore) (portfolio : PortfolioCode) (n : Nat) (hn : n ≤ turns.length) :
    HistoryAt clients turns s portfolio n := by
  induction n with
  | zero => exact ⟨[], [], rfl, .nil, by simp⟩
  | succ n ih =>
    have hbefore := ih (by omega)
    have ht : turns[n]? = some turns[n] := List.getElem?_eq_getElem (by omega)
    -- A turn writes nothing, or it adds a claim to this ledger, or it writes to another one.
    rcases stored_take_succ hgenuine ht with ⟨hnone, hsame⟩ | ⟨write, hwrite, happlied⟩
    · apply hbefore.succ_of_not_commit (by rw [hsame])
      rintro client triple ⟨t, write, _, _, _, ht', hwrite, -⟩
      obtain rfl : turns[n] = t := Option.some.inj (ht.symm.trans ht')
      rw [hnone] at hwrite
      exact absurd hwrite (by simp)
    · obtain ⟨client, triple, hcommit⟩ := hcommits n _ write ht hwrite
      have hcommit' := hcommit
      obtain ⟨t, other, owner, expected, c, ht', hother, -, rfl, hcommits'⟩ := hcommit'
      obtain rfl : turns[n] = t := Option.some.inj (ht.symm.trans ht')
      obtain rfl : write = other := Option.some.inj (hwrite.symm.trans hother)
      by_cases hpath : s.path portfolio = write.path
      · obtain ⟨hfolder, rfl⟩ := LedgerStore.path_injective (hpath.trans hcommits'.path)
        exact hbefore.succ_of_commit hcommit hfolder hcommits' happlied
      · apply hbefore.succ_of_not_commit
        · unfold LedgerStore.heldBuckets
          rw [happlied, LedgerStore.held_applied_of_ne hpath]
        · intro other triple' hother' hfolder hportfolio
          obtain ⟨rfl, rfl⟩ := hcommit.unique hother'
          apply hpath
          rw [hcommits'.path, ← hportfolio]
          exact LedgerStore.path_eq_of_folder hfolder.symm

/-- No two turns commit the same triple to ledgers of one folder. -/
theorem CommitsAt.ne_of_lt (hgenuine : Genuine (I := Storage.interface) Memory.answer [] turns)
    (hcommits : ∀ k t write, turns[k]? = some t → Write.ofTurn? t = some write →
      ∃ client triple, CommitsAt clients turns k client triple)
    {k l : Nat} {client client' : Client} {triple triple' : Triple} (hkl : k < l)
    (h : CommitsAt clients turns k client triple) (h' : CommitsAt clients turns l client' triple')
    (hfolder : client.store.folder = client'.store.folder) : triple ≠ triple' := by
  rintro rfl
  obtain ⟨t, write, portfolio, expected, c, ht, -, -, rfl, hcommit⟩ := h'
  have hl : l < turns.length := (List.getElem?_eq_some_iff.mp ht).1
  obtain ⟨claims, rows, hrows, hhistory, hall⟩ :=
    history_take hgenuine hcommits client'.store portfolio l (by omega)
  obtain ⟨d, hd, heq⟩ := hall k hkl client _ h hfolder rfl
  have hclaim := (hcommit.of_tidy hrows hhistory.tidy).1
  -- The earlier claim is behind the cursor at which the later one is taken.
  have hbehind : d.rank < c.rank :=
    Nat.lt_of_lt_of_le (hhistory.rank_lt d hd) (Cursor.rank_le_of_claim hclaim)
  have hsame : d.rank = c.rank := by
    simp only [tripleOf, Triple.mk.injEq] at heq
    unfold Claim.rank
    rw [heq.2.1, heq.2.2]
  omega

end

/-! ## Runs of clients -/

/-- The turns that clients take under a schedule on storage without objects, and what is left of
them. -/
def issuing (clients : List Client) (schedule : List Nat) :
    List (Turn Storage.interface) ×
      Crowd Storage.interface (Except AllocationError Reference) Storage.Objects :=
  Crowd.run (I := Storage.interface) Memory.answer schedule ⟨clients.map Client.program, []⟩

/-- Under every schedule every client is at its stage. -/
theorem staged_issuing (clients : List Client) (schedule : List Nat) :
    Crowd.Staged (I := Storage.interface) Memory.answer [] clients
      (fun client process => client.store.takingStage process client.settings.capacity
        (LedgerStore.writes client.settings.layout))
      (issuing clients schedule).1 (issuing clients schedule).2 := by
  apply Crowd.staged_run
  · intro client process
    exact LedgerStore.takingStage_steady
  · intro client process
    exact LedgerStore.issue_obeys client.settings client.code (by simp [LedgerStore.Silent])

/-- A client with a reference has committed the claim of its triple. -/
theorem committed_of_result {clients : List Client} {schedule : List Nat} {i : Nat}
    {client : Client} {r : Reference} (hclient : clients[i]? = some client)
    (hr : (issuing clients schedule).2.result? i = some (.ok r)) :
    ∃ portfolio expected c, client.store.Committed i portfolio expected client.settings.capacity c
        (issuing clients schedule).1 ∧
      client.settings.layout.write (tripleOf portfolio c) = .ok r := by
  have hstage := (staged_issuing clients schedule).stage i client hclient
  rw [hr] at hstage
  exact hstage

/-- Every write of a run of clients commits a claim of the client that wrote. -/
theorem commitsAt_of_write {clients : List Client} {schedule : List Nat} {k : Nat}
    {t : Turn Storage.interface} {write : Write} (ht : (issuing clients schedule).1[k]? = some t)
    (hwrite : Write.ofTurn? t = some write) :
    ∃ client triple, CommitsAt clients (issuing clients schedule).1 k client triple := by
  have hstaged := staged_issuing clients schedule
  obtain ⟨client, hclient⟩ := hstaged.present t (List.mem_of_getElem? ht)
  have hstage := hstaged.stage _ client hclient
  unfold LedgerStore.takingStage at hstage
  split at hstage
  · obtain ⟨portfolio, expected, c, hcommitted, -⟩ := hstage
    exact ⟨client, _, t, write, portfolio, expected, c, ht, hwrite, hclient, rfl,
      hcommitted.commits ht rfl hwrite⟩
  · exact absurd hwrite (hstage.not_write ht rfl)

/-- No reference is issued twice. Whatever settings clients have and however their calls on storage
interleave, every write commits a claim of one client, and no two writes commit the same triple to
ledgers of one folder. A client that ends with a reference has committed the triple that its layout
writes so, and two clients with one folder never end with the same text. -/
theorem references_unique (clients : List Client) (schedule : List Nat) :
    (∀ k t write, (issuing clients schedule).1[k]? = some t → Write.ofTurn? t = some write →
      ∃ client triple, CommitsAt clients (issuing clients schedule).1 k client triple) ∧
    (∀ k l client client' triple triple', k ≠ l →
      CommitsAt clients (issuing clients schedule).1 k client triple →
      CommitsAt clients (issuing clients schedule).1 l client' triple' →
      client.store.folder = client'.store.folder → triple ≠ triple') ∧
    (∀ (i : Nat) client r, clients[i]? = some client →
      (issuing clients schedule).2.result? i = some (.ok r) →
      ∃ k t triple, (issuing clients schedule).1[k]? = some t ∧ t.process = i ∧
        CommitsAt clients (issuing clients schedule).1 k client triple ∧
        client.settings.layout.write triple = .ok r) ∧
    (∀ (i j : Nat) client client' r r', i ≠ j → clients[i]? = some client →
      clients[j]? = some client' → client.store.folder = client'.store.folder →
      (issuing clients schedule).2.result? i = some (.ok r) →
      (issuing clients schedule).2.result? j = some (.ok r') → r.text ≠ r'.text) := by
  have hgenuine := (staged_issuing clients schedule).genuine
  have hwrites : ∀ k t write, (issuing clients schedule).1[k]? = some t →
      Write.ofTurn? t = some write →
      ∃ client triple, CommitsAt clients (issuing clients schedule).1 k client triple :=
    fun k t write ht hwrite => commitsAt_of_write ht hwrite
  have hdistinct : ∀ k l client client' triple triple', k ≠ l →
      CommitsAt clients (issuing clients schedule).1 k client triple →
      CommitsAt clients (issuing clients schedule).1 l client' triple' →
      client.store.folder = client'.store.folder → triple ≠ triple' := by
    intro k l client client' triple triple' hkl h h' hfolder
    rcases Nat.lt_or_gt_of_ne hkl with hlt | hgt
    · exact h.ne_of_lt hgenuine hwrites hlt h' hfolder
    · exact (h'.ne_of_lt hgenuine hwrites hgt h hfolder.symm).symm
  have hreturned : ∀ (i : Nat) client r, clients[i]? = some client →
      (issuing clients schedule).2.result? i = some (.ok r) →
      ∃ k t triple, (issuing clients schedule).1[k]? = some t ∧ t.process = i ∧
        CommitsAt clients (issuing clients schedule).1 k client triple ∧
        client.settings.layout.write triple = .ok r := by
    intro i client r hclient hr
    obtain ⟨portfolio, expected, c, hcommitted, hwrite⟩ := committed_of_result hclient hr
    obtain ⟨k, t, write, ht, rfl, hofTurn, hcommits, -⟩ := hcommitted.exists_turn
    exact ⟨k, t, _, ht, rfl,
      ⟨t, write, portfolio, expected, c, ht, hofTurn, hclient, rfl, hcommits⟩, hwrite⟩
  refine ⟨hwrites, hdistinct, hreturned, ?_⟩
  intro i j client client' r r' hij hclient hclient' hfolder hr hr' htext
  obtain ⟨k, t, triple, ht, hi, hcommit, hwrite⟩ := hreturned i client r hclient hr
  obtain ⟨l, u, triple', hu, hj, hcommit', hwrite'⟩ := hreturned j client' r' hclient' hr'
  have hkl : k ≠ l := by
    rintro rfl
    obtain rfl : t = u := Option.some.inj (ht.symm.trans hu)
    exact hij (hi.symm.trans hj)
  obtain rfl : r = r' := by
    cases r
    cases r'
    exact congrArg Reference.mk htext
  -- Layouts of any widths write one text for one triple only, so the turns commit the same one.
  exact hdistinct k l client client' triple triple' hkl hcommit hcommit' hfolder
    (Layout.write_injective hwrite hwrite')

/-- A client for the portfolio seven. -/
def clientOfSeven (layout : Layout) (capacity : UInt32)
    (h : 1 ≤ capacity ∧ capacity ≤ layout.largest) : Client where
  settings :=
    { registry := .standard, layout, capacity, tries := 2, capacity_pos := h.1, capacity_le := h.2,
      tries_pos := by decide }
  store := ⟨none, .epoch⟩
  code := 7

/-- Two clients that race for the first sequence of a portfolio. The first one has room for a single
sequence under each letter, and writes it with one digit. -/
def racingClients : List Client :=
  [clientOfSeven ⟨1, by decide, by decide⟩ 1 (by decide),
    clientOfSeven ⟨3, by decide, by decide⟩ 2 (by decide)]

/-- Both clients read before either writes, so the second one has to try again. -/
def raceSchedule : List Nat := [0, 1, 0, 1, 0, 1, 1, 1, 1, 1, 1]

/-- The winner of the race has filled the letter `A`, and the other client gets the first sequence
of the letter `B`, which it has committed with a write of its own. -/
theorem references_unique_race :
    (issuing racingClients raceSchedule).2.result? 0 = some (.ok ⟨"7A1"⟩) ∧
    (issuing racingClients raceSchedule).2.result? 1 = some (.ok ⟨"7B001"⟩) ∧
    ∃ k t triple, (issuing racingClients raceSchedule).1[k]? = some t ∧ t.process = 1 ∧
      CommitsAt racingClients (issuing racingClients raceSchedule).1 k
        (clientOfSeven ⟨3, by decide, by decide⟩ 2 (by decide)) triple ∧
      Layout.write ⟨3, by decide, by decide⟩ triple = .ok ⟨"7B001"⟩ := by
  have hsecond : (issuing racingClients raceSchedule).2.result? 1 = some (.ok ⟨"7B001"⟩) := by
    decide +kernel
  refine ⟨by decide +kernel, hsecond, ?_⟩
  exact (references_unique racingClients raceSchedule).2.2.1 1 _ _ rfl hsecond

end ReferenceMint
