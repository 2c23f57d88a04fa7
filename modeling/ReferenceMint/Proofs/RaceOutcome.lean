import ReferenceMint.Proofs.Arrival
import ReferenceMint.Proofs.Enumeration
import ReferenceMint.Proofs.Processes
import ReferenceMint.Proofs.Standing

/-!
# What processes get in a race

Processes race for the references of one portfolio that has issued none, all under one capacity. The
ledger stands at the cursor whose place is its version (`Raced.standsAt`), and the version counts
what all processes have issued (`Raced.version_eq`). So what a process issues is the reference in
the place of the version at which it wrote (`Raced.nth_of_issuedAt`).

If there is room for all references, and every process may try more often than all others together
issue references, no issue fails: it would need more lost races than there are, or the end of the
space (`Raced.errors_eq_nil`). Then the processes issue as many references as they were to, each of
which is in another place, and so exactly the first ones (`race_issues_first_references`).
-/

namespace ReferenceMint

open Numeral (limit64)
open Storage (Memory.answer Write stored writesTo writesBy version_stored_eq version_stored_le)
open Store (LedgerStore tripleOf)
open Store.LedgerStore (SilentSince)

/-- What the client does on storage to issue references, as many as it can of `count`. -/
def Client.process (client : Client) (count : Nat) : Program Storage.interface ProcessResult :=
  client.store.program (client.settings.process client.code count)

/-- The client issues references of the portfolio in the folder of the store, under the capacity. -/
structure Racer (store : LedgerStore) (portfolio : PortfolioCode) (capacity : UInt32)
    (client : Client) : Prop where
  /-- The ledgers are in the same folder. -/
  folder : client.store.folder = store.folder
  /-- The capacity is the same. -/
  capacity : client.settings.capacity = capacity
  /-- The code is that of the portfolio. -/
  check : client.settings.check client.code = .ok portfolio

/-- Turns after which every client has made its issues of a portfolio that had none before. -/
structure Raced (clients : List Client) (store : LedgerStore) (portfolio : PortfolioCode)
    (capacity : UInt32) (count : Nat) (before turns : List (Turn Storage.interface))
    (outcome : Nat → ProcessResult) : Prop where
  /-- The turns are genuine. -/
  genuine : Genuine (I := Storage.interface) Memory.answer [] turns
  /-- The race began after some turns. -/
  start : before <+: turns
  /-- There was no ledger of the portfolio. -/
  fresh : (stored before).get? (store.path portfolio) = none
  /-- Since then only the clients took turns. -/
  present : ∀ t ∈ turns.drop before.length, t.process < clients.length
  /-- They all race for the portfolio. -/
  racers : ∀ client ∈ clients, Racer store portfolio capacity client
  /-- They all are done. -/
  ends : ∀ (i : Nat) client, clients[i]? = some client →
    client.store.ProcessEnds i client.settings portfolio before count (outcome i) turns

namespace Raced

variable {clients : List Client} {store : LedgerStore} {portfolio : PortfolioCode}
  {capacity : UInt32} {count : Nat} {before turns : List (Turn Storage.interface)}
  {outcome : Nat → ProcessResult}

/-- A turn since the beginning is that of a client. -/
theorem exists_client (h : Raced clients store portfolio capacity count before turns outcome)
    {k : Nat} {t : Turn Storage.interface} (hk : before.length ≤ k) (ht : turns[k]? = some t) :
    ∃ client, clients[t.process]? = some client ∧ Racer store portfolio capacity client := by
  have hlt := h.present t (mem_drop_of_getElem? ht hk)
  exact ⟨clients[t.process], List.getElem?_eq_getElem hlt, h.racers _ (List.getElem_mem hlt)⟩

/-- Every write commits a claim of a client. -/
theorem commitsFrom (h : Raced clients store portfolio capacity count before turns outcome) :
    CommitsFrom clients turns before.length := by
  intro k t write hk ht hwrite
  obtain ⟨client, hclient, -⟩ := h.exists_client hk ht
  obtain ⟨r, -, hissued⟩ := (h.ends _ client hclient).2.written k t write hk ht rfl hwrite
  obtain ⟨expected, c, hcommits, -⟩ := hissued.commits ht hwrite
  exact ⟨client, _, t, write, portfolio, expected, c, ht, hwrite, hclient, rfl, hcommits⟩

/-! ## The ledger -/

/-- At each moment the ledger stands at the cursor in the place of its version. -/
theorem standsAt (h : Raced clients store portfolio capacity count before turns outcome)
    {moment : List (Turn Storage.interface)} (hbefore : before <+: moment)
    (hmoment : moment <+: turns) :
    ∃ cursor version, store.StandsAt portfolio (stored moment) cursor version ∧
      (version < 26 * capacity.toNat → cursor = .nth capacity version) := by
  have htake : ∀ n, before.length ≤ n → n ≤ turns.length →
      ∃ cursor version, store.StandsAt portfolio (stored (turns.take n)) cursor version ∧
        (version < 26 * capacity.toNat → cursor = .nth capacity version) := by
    intro n hn hle
    induction n, hn using Nat.le_induction with
    | base =>
      rw [← List.prefix_iff_eq_take.mp h.start]
      refine ⟨.start, 0, LedgerStore.standsAt_of_none h.fresh, fun hpos => ?_⟩
      exact (Cursor.nth_zero (by omega)).symm
    | succ n hn ih =>
      obtain ⟨cursor, version, hstands, hnth⟩ := ih (by omega)
      rcases standsAt_take_succ h.genuine h.commitsFrom hn (by omega) hstands with
        hsame | ⟨client, c, hcommit, -, hclaim, hafter⟩
      · exact ⟨cursor, version, hsame, hnth⟩
      · refine ⟨c.after, version + 1, hafter, fun hlt => ?_⟩
        obtain ⟨_, _, _, _, _, -, -, hclient, -⟩ := hcommit
        rw [(h.racers client (List.mem_of_getElem? hclient)).capacity, hnth (by omega),
          Cursor.claim_nth (by omega)] at hclaim
        rw [← Option.some.inj hclaim]
        exact Cursor.after_claim_nth hlt
  rw [List.prefix_iff_eq_take.mp hmoment]
  exact htake _ hbefore.length_le hmoment.length_le

/-- What a process issues is the reference in the place of the version at which it wrote. -/
theorem nth_of_issuedAt (h : Raced clients store portfolio capacity count before turns outcome)
    (hspace : (stored turns).version (store.path portfolio) ≤ 26 * capacity.toNat) {i k : Nat}
    {client : Client} {r : Reference} (hclient : clients[i]? = some client)
    (hk : before.length ≤ k)
    (hr : client.store.IssuedAt i client.settings portfolio turns k r) :
    ∃ v, (stored (turns.take k)).version (store.path portfolio) = v ∧
      v < (stored turns).version (store.path portfolio) ∧
      client.settings.layout.write (.nth portfolio capacity v) = .ok r := by
  obtain ⟨t, write, expected, c, ht, rfl, hwrite, hcommits, hr⟩ := hr
  have hracer := h.racers client (List.mem_of_getElem? hclient)
  have hlt : k < turns.length := (List.getElem?_eq_some_iff.mp ht).1
  have hbefore : before <+: turns.take k := by
    rw [List.prefix_iff_eq_take.mp h.start]
    exact List.take_prefix_take_left hk
  obtain ⟨cursor, version, hstands, hnth⟩ := h.standsAt hbefore (List.take_prefix _ _)
  have hcommit : CommitsAt clients turns k client (tripleOf portfolio c) :=
    ⟨t, write, portfolio, expected, c, ht, hwrite, hclient, rfl, hcommits⟩
  obtain ⟨d, hd, hclaim, hafter⟩ := hcommit.standsAt h.genuine hracer.folder.symm rfl hstands
  -- The write has made one version more.
  have hversion : version + 1 ≤ (stored turns).version (store.path portfolio) := by
    rw [← hafter.version_eq]
    exact version_stored_le _ (List.take_prefix _ _)
  refine ⟨version, hstands.version_eq, hversion, ?_⟩
  rw [hracer.capacity, hnth (by omega), Cursor.claim_nth (by omega)] at hclaim
  have htriple : tripleOf portfolio c = .nth portfolio capacity version := by
    rw [hd, ← Option.some.inj hclaim]
    rfl
  rw [← htriple]
  exact hr

/-! ## Counting -/

/-- The turns since the beginning. -/
theorem eq_append (h : Raced clients store portfolio capacity count before turns outcome) :
    turns = before ++ turns.drop before.length := by
  obtain ⟨since, rfl⟩ := h.start
  rw [List.drop_left]

/-- Nobody has written the ledger before. -/
theorem writesTo_before (h : Raced clients store portfolio capacity count before turns outcome) :
    writesTo (store.path portfolio) before = [] := by
  have hversion := version_stored_eq (store.path portfolio) h.genuine h.start
  rw [Storage.Objects.version_of_none h.fresh] at hversion
  exact List.length_eq_zero_iff.mp hversion.symm

/-- The version of the ledger counts what all clients have issued. -/
theorem version_eq (h : Raced clients store portfolio capacity count before turns outcome) :
    (stored turns).version (store.path portfolio) =
      ∑ i ∈ Finset.range clients.length, (outcome i).issued.length := by
  have hwrites : writesTo (store.path portfolio) turns =
      writesTo (store.path portfolio) (turns.drop before.length) := by
    conv_lhs => rw [h.eq_append]
    rw [Storage.writesTo_append, h.writesTo_before, List.nil_append]
  have hpresent : ∀ write ∈ writesTo (store.path portfolio) (turns.drop before.length),
      write.process < clients.length := by
    intro write hmem
    obtain ⟨t, ht, hwrite⟩ := List.mem_filterMap.mp (List.mem_filter.mp hmem).1
    rw [Write.process_eq hwrite]
    exact h.present t ht
  rw [version_stored_eq _ h.genuine (List.prefix_refl _), hwrites,
    Storage.length_eq_sum_writers hpresent]
  apply Finset.sum_congr rfl
  intro i hi
  have hclient := List.getElem?_eq_getElem (Finset.mem_range.mp hi)
  obtain ⟨-, haccounted⟩ := h.ends i _ hclient
  rw [← haccounted.count, Storage.filter_writesTo_eq]
  -- A client only writes to the ledger of the portfolio.
  intro write hmem
  obtain ⟨hmem, hown⟩ := List.mem_filter.mp hmem
  obtain ⟨j, t, ht, hwrite⟩ := Storage.exists_turn_of_mem_writes hmem
  rw [List.getElem?_drop] at ht
  have hprocess : t.process = i := (Write.process_eq hwrite).symm.trans (by simpa using hown)
  obtain ⟨r, -, hissued⟩ :=
    haccounted.written _ t write (Nat.le_add_right _ j) ht hprocess hwrite
  obtain ⟨expected, c, hcommits, -⟩ := hissued.commits ht hwrite
  rw [hcommits.path]
  exact LedgerStore.path_eq_of_folder (h.racers _ (List.mem_of_getElem? hclient)).folder

/-- A client issues no more references than it was to. -/
theorem length_issued_le (h : Raced clients store portfolio capacity count before turns outcome)
    {i : Nat} (hi : i < clients.length) : (outcome i).issued.length ≤ count := by
  have htotal := (h.ends i _ (List.getElem?_eq_getElem hi)).1
  omega

/-- With an error, less was issued than there was to. -/
theorem version_lt (h : Raced clients store portfolio capacity count before turns outcome)
    {i : Nat} (hi : i < clients.length) (herror : (outcome i).errors ≠ []) :
    (stored turns).version (store.path portfolio) < clients.length * count := by
  have hless : (outcome i).issued.length < count := by
    have htotal := (h.ends i _ (List.getElem?_eq_getElem hi)).1
    have hpos := List.length_pos_iff.mpr herror
    omega
  calc (stored turns).version (store.path portfolio)
      = ∑ i ∈ Finset.range clients.length, (outcome i).issued.length := h.version_eq
    _ < ∑ _i ∈ Finset.range clients.length, count :=
        Finset.sum_lt_sum (fun j hj => h.length_issued_le (Finset.mem_range.mp hj))
          ⟨i, Finset.mem_range.mpr hi, hless⟩
    _ = clients.length * count := by
        rw [Finset.sum_const, Finset.card_range, smul_eq_mul]

/-- While a client writes nothing, the version goes up by no more than the others issue. -/
theorem version_le_of_silent
    (h : Raced clients store portfolio capacity count before turns outcome)
    {first now : List (Turn Storage.interface)} {i : Nat} (hi : i < clients.length)
    (hbefore : before <+: first) (hnow : now <+: turns) (hsilent : SilentSince i first now) :
    (stored now).version (store.path portfolio) ≤
      (stored first).version (store.path portfolio) + (clients.length - 1) * count := by
  have hfirst := hsilent.isPrefix.trans hnow
  rw [version_stored_eq _ h.genuine hnow, version_stored_eq _ h.genuine hfirst]
  obtain ⟨since, rfl, hsince⟩ := hsilent
  obtain ⟨start, rfl⟩ := hbefore
  obtain ⟨rest, hrest⟩ := hnow
  have hdrop : turns.drop before.length = start ++ since ++ rest := by
    rw [← hrest, List.append_assoc before, List.append_assoc before, List.drop_left]
  rw [Storage.writesTo_append, List.length_append]
  refine Nat.add_le_add_left (Storage.length_le_of_others hi ?_ ?_ ?_) _
  · intro write hmem
    obtain ⟨t, ht, hwrite⟩ := List.mem_filterMap.mp (List.mem_filter.mp hmem).1
    rw [Write.process_eq hwrite]
    apply h.present
    rw [hdrop]
    simp [ht]
  · intro write hmem hown
    obtain ⟨t, ht, hwrite⟩ := List.mem_filterMap.mp (List.mem_filter.mp hmem).1
    have hnone := hsince t ht ((Write.process_eq hwrite).symm.trans hown)
    rw [hnone] at hwrite
    exact absurd hwrite (by simp)
  · intro j hj
    have hcount := (h.ends j _ (List.getElem?_eq_getElem hj)).2.count
    rw [hdrop, Storage.writesBy_append, Storage.writesBy_append, List.length_append,
      List.length_append] at hcount
    calc ((writesTo (store.path portfolio) since).filter fun write => write.process = j).length
        ≤ (writesBy j since).length :=
          (Storage.filter_writesTo_sublist j (store.path portfolio) since).length_le
      _ ≤ (outcome j).issued.length := by omega
      _ ≤ count := h.length_issued_le hj

/-! ## The outcome -/

/-- If there is room for all references, and each client may try more often than the others issue
references, then no issue fails. -/
theorem errors_eq_nil (h : Raced clients store portfolio capacity count before turns outcome)
    (hspace : clients.length * count ≤ 26 * capacity.toNat) {i : Nat} {client : Client}
    (hclient : clients[i]? = some client)
    (htries : (clients.length - 1) * count < client.settings.tries.toNat) :
    (outcome i).errors = [] := by
  by_contra hsome
  have hi : i < clients.length := (List.getElem?_eq_some_iff.mp hclient).1
  have hlast := h.version_lt hi hsome
  have hfolder := (h.racers client (List.mem_of_getElem? hclient)).folder
  have hcapacity := (h.racers client (List.mem_of_getElem? hclient)).capacity
  -- As not everything was issued, the space was never exhausted.
  have hroom : ∀ moment : List (Turn Storage.interface), before <+: moment → moment <+: turns →
      ∃ cursor c, client.store.cursorIn portfolio (stored moment) = .ok cursor ∧
        cursor.claim client.settings.capacity = some c := by
    intro moment hbefore hmoment
    obtain ⟨cursor, version, hstands, hnth⟩ := h.standsAt hbefore hmoment
    have hle := version_stored_le (store.path portfolio) hmoment
    rw [hstands.version_eq] at hle
    have hclaim := @Cursor.claim_nth capacity version (by omega)
    rw [← hnth (by omega), ← hcapacity] at hclaim
    exact ⟨cursor, _, (hstands.of_folder hfolder.symm).cursorIn, hclaim⟩
  obtain ⟨e, he⟩ := List.exists_mem_of_ne_nil _ hsome
  obtain ⟨begun, now, hbegun, hnow, hends⟩ := (h.ends i client hclient).2.failed e he
  cases e with
  | outOfTries owner tries =>
    obtain ⟨-, rfl, first, hfirst, hwatched, hpassed⟩ := hends
    have hle := h.version_le_of_silent hi (hbegun.trans hfirst.silent.isPrefix) hnow hwatched.silent
    have hbound := version_stored_le (store.path portfolio) hnow
    have hsize := capacity.toNat_lt
    have hlimit : 26 * 2 ^ 32 ≤ limit64 := by decide
    unfold LedgerStore.Passed at hpassed
    rw [LedgerStore.path_eq_of_folder hfolder] at hpassed
    omega
  | outOfSpace owner =>
    obtain ⟨-, -, moment, seen, hmoment, hextends, hcursor, hnone⟩ := hends
    obtain ⟨cursor, c, hok, hclaim⟩ :=
      hroom moment (hbegun.trans hmoment.silent.isPrefix) (hextends.trans hnow)
    obtain rfl : seen = cursor := Except.ok.inj (hcursor.symm.trans hok)
    rw [hnone] at hclaim
    exact absurd hclaim (by simp)
  | _ =>
    obtain ⟨hsilent, failure, hcursor, -⟩ := hends
    obtain ⟨cursor, c, hok, -⟩ := hroom now (hbegun.trans hsilent.isPrefix) hnow
    rw [hcursor] at hok
    exact absurd hok (by simp)

/-- Everything that was issued is in one of the first places. -/
theorem nth_of_issued (h : Raced clients store portfolio capacity count before turns outcome)
    (hspace : clients.length * count ≤ 26 * capacity.toNat) {i : Nat} {client : Client}
    {r : Reference} (hclient : clients[i]? = some client) (hr : r ∈ (outcome i).issued) :
    ∃ v < clients.length * count,
      client.settings.layout.write (.nth portfolio capacity v) = .ok r := by
  have htotal : (stored turns).version (store.path portfolio) ≤ clients.length * count := by
    rw [h.version_eq]
    calc ∑ i ∈ Finset.range clients.length, (outcome i).issued.length
        ≤ (Finset.range clients.length).card • count :=
          Finset.sum_le_card_nsmul _ _ _ fun j hj => h.length_issued_le (Finset.mem_range.mp hj)
      _ = clients.length * count := by rw [Finset.card_range, smul_eq_mul]
  obtain ⟨k, hk, hissued⟩ := (h.ends i client hclient).2.committed r hr
  obtain ⟨v, -, hlt, hwrite⟩ := h.nth_of_issuedAt (by omega) hclient hk hissued
  exact ⟨v, by omega, hwrite⟩

/-- If no issue fails, then the reference in each of the first places is issued. -/
theorem issued_of_lt (h : Raced clients store portfolio capacity count before turns outcome)
    (hspace : clients.length * count ≤ 26 * capacity.toNat)
    (herrors : ∀ i < clients.length, (outcome i).errors = []) {v : Nat}
    (hv : v < clients.length * count) :
    ∃ (i : Nat) (client : Client) (r : Reference), clients[i]? = some client ∧
      r ∈ (outcome i).issued ∧
      client.settings.layout.write (.nth portfolio capacity v) = .ok r := by
  have htotal : (stored turns).version (store.path portfolio) = clients.length * count := by
    rw [h.version_eq]
    calc ∑ i ∈ Finset.range clients.length, (outcome i).issued.length
        = ∑ _i ∈ Finset.range clients.length, count := by
          apply Finset.sum_congr rfl
          intro i hi
          have hall := (h.ends i _ (List.getElem?_eq_getElem (Finset.mem_range.mp hi))).1
          rw [herrors i (Finset.mem_range.mp hi)] at hall
          exact hall
      _ = clients.length * count := by rw [Finset.sum_const, Finset.card_range, smul_eq_mul]
  have hlength := version_stored_eq (store.path portfolio) h.genuine (List.prefix_refl _)
  rw [htotal] at hlength
  obtain ⟨k, t, ht, hwrite, hpath, htake⟩ :=
    Storage.exists_turn_of_writesTo (List.getElem?_eq_getElem (hlength ▸ hv))
  have hk : before.length ≤ k := by
    by_contra hlt
    obtain ⟨since, rfl⟩ := h.start
    rw [List.getElem?_append_left (Nat.lt_of_not_le hlt)] at ht
    have hmem : _ ∈ writesTo (store.path portfolio) before :=
      List.mem_filter.mpr ⟨List.mem_filterMap.mpr ⟨t, List.mem_of_getElem? ht, hwrite⟩,
        by simpa using hpath⟩
    rw [h.writesTo_before] at hmem
    exact absurd hmem (by simp)
  -- When the write was made, the ledger had the version `v`.
  have hversion : (stored (turns.take k)).version (store.path portfolio) = v := by
    rw [version_stored_eq _ h.genuine (List.take_prefix k turns), htake, List.length_take]
    omega
  obtain ⟨client, hclient, -⟩ := h.exists_client hk ht
  obtain ⟨r, hr, hissued⟩ := (h.ends _ client hclient).2.written k t _ hk ht rfl hwrite
  obtain ⟨w, hw, -, hwritten⟩ := h.nth_of_issuedAt (by omega) hclient hk hissued
  obtain rfl : v = w := hversion.symm.trans hw
  exact ⟨t.process, client, r, hclient, hr, hwritten⟩

end Raced

/-! ## Races -/

/-- All turns on storage if clients issue references under a schedule after the earlier calls of
somebody else, and what is left of the clients. -/
def racing (clients : List Client) (count : Nat) (earlier : List Storage.Call)
    (schedule : List Nat) :
    List (Turn Storage.interface) × Crowd Storage.interface ProcessResult Storage.Objects :=
  runAfter (fun client => client.process count) clients earlier schedule

/-- What a client issues on its own after the turns before. -/
def Client.issuedAlone (client : Client) (count : Nat) (before : List (Turn Storage.interface)) :
    ProcessResult :=
  ((client.process count).value Memory.answer (stored before)).1

section

variable {clients : List Client} {store : LedgerStore} {portfolio : PortfolioCode}
  {capacity : UInt32} {count : Nat} {earlier : List Storage.Call} {schedule : List Nat}

/-- A race has run once all clients are done. -/
theorem raced_racing (hracers : ∀ client ∈ clients, Racer store portfolio capacity client)
    (hfresh : (stored (turnsBefore clients earlier)).get? (store.path portfolio) = none)
    {outcome : Nat → ProcessResult}
    (hdone : ∀ i < clients.length,
      (racing clients count earlier schedule).2.result? i = some (outcome i)) :
    Raced clients store portfolio capacity count (turnsBefore clients earlier)
      (racing clients count earlier schedule).1 outcome where
  genuine := genuine_runAfter _ clients earlier schedule
  start := turnsBefore_prefix _ clients earlier schedule
  fresh := hfresh
  present := by
    intro t ht
    obtain ⟨client, hclient⟩ := exists_client_of_turn ht
    exact (List.getElem?_eq_some_iff.mp hclient).1
  racers := hracers
  ends := by
    intro i client hclient
    have hobeys : ∀ (client : Client) i, clients[i]? = some client →
        (client.process count).Obeys Memory.answer [] i (.ending (client.store.ProcessEnds i
          client.settings portfolio (turnsBefore clients earlier) count))
          (turnsBefore clients earlier) := fun client i hclient =>
      LedgerStore.process_ends (hracers client (List.mem_of_getElem? hclient)).check count
    have hresult := hdone i (List.getElem?_eq_some_iff.mp hclient).1
    unfold racing at hresult
    obtain ⟨now, later, hturns, hlater, htotal, haccounted⟩ :=
      ended_runAfter hobeys hclient hresult
    refine ⟨htotal, ?_⟩
    -- What others did afterwards does not matter.
    show client.store.Accounted i client.settings portfolio _ _ _
      (runAfter (fun client => client.process count) clients earlier schedule).1
    rw [hturns]
    exact haccounted.silent (LedgerStore.silentSince_others hlater)

/-- A client on its own has run a race without others. -/
theorem raced_alone {alone : Client} {before : List (Turn Storage.interface)}
    (halone : Racer store portfolio capacity alone)
    (hgenuine : Genuine (I := Storage.interface) Memory.answer [] before)
    (hfresh : (stored before).get? (store.path portfolio) = none) :
    ∃ turns, Raced [alone] store portfolio capacity count before turns
      fun _ => alone.issuedAlone count before := by
  have hobeys : (alone.process count).Obeys Memory.answer [] 0
      (.ending (alone.store.ProcessEnds 0 alone.settings portfolio before count)) before :=
    LedgerStore.process_ends halone.check count
  obtain ⟨own, hown, hmore, hends⟩ := hobeys.value
  refine ⟨before ++ own, ⟨hmore hgenuine, List.prefix_append _ _, hfresh, ?_, ?_, ?_⟩⟩
  · intro t ht
    rw [List.drop_left] at ht
    rw [hown t ht]
    exact Nat.one_pos
  · intro client hclient
    rw [List.mem_singleton.mp hclient]
    exact halone
  · intro i client hclient
    obtain ⟨rfl, rfl⟩ : i = 0 ∧ client = alone := by
      cases i with
      | zero => exact ⟨rfl, (Option.some.inj hclient).symm⟩
      | succ i => exact absurd hclient (by simp)
    exact hends

end

/-- In a race everybody together gets exactly the first references. Clients issue `count` references
each of a portfolio that has issued none, all under one capacity, and there is room for all of these
references. Each client may try more often than the others issue references. Then, however their
calls on storage interleave, once they are all done:

* no issue has failed, each client has issued `count` references, and each of them is that of one of
  the first places;
* the reference of each of the first places was issued by some client;
* if all clients have one layout, what they have issued together is what a single client with this
  layout issues on its own, without an error. -/
theorem race_issues_first_references (clients : List Client) (store : LedgerStore)
    (portfolio : PortfolioCode) (capacity : UInt32) (count : Nat) (earlier : List Storage.Call)
    (schedule : List Nat)
    (hracers : ∀ client ∈ clients, Racer store portfolio capacity client ∧
      (clients.length - 1) * count < client.settings.tries.toNat)
    (hfresh : (stored (turnsBefore clients earlier)).get? (store.path portfolio) = none)
    (hspace : clients.length * count ≤ 26 * capacity.toNat)
    (hdone : ∀ i < clients.length,
      ((racing clients count earlier schedule).2.result? i).isSome = true) :
    (∀ (i : Nat) client, clients[i]? = some client → ∃ outcome,
      (racing clients count earlier schedule).2.result? i = some outcome ∧ outcome.errors = [] ∧
      outcome.issued.length = count ∧ ∀ r ∈ outcome.issued, ∃ v < clients.length * count,
        client.settings.layout.write (.nth portfolio capacity v) = .ok r) ∧
    (∀ v < clients.length * count, ∃ (i : Nat) (client : Client) (outcome : ProcessResult) (r : _),
      clients[i]? = some client ∧
      (racing clients count earlier schedule).2.result? i = some outcome ∧ r ∈ outcome.issued ∧
      client.settings.layout.write (.nth portfolio capacity v) = .ok r) ∧
    ∀ alone : Client, Racer store portfolio capacity alone →
      (∀ client ∈ clients, client.settings.layout = alone.settings.layout) →
      (alone.issuedAlone (clients.length * count) (turnsBefore clients earlier)).errors = [] ∧
      ∀ r, (∃ (i : Nat) (outcome : ProcessResult),
          (racing clients count earlier schedule).2.result? i = some outcome ∧
          r ∈ outcome.issued) ↔
        r ∈ (alone.issuedAlone (clients.length * count) (turnsBefore clients earlier)).issued := by
  have : Nonempty ProcessResult := ⟨⟨[], []⟩⟩
  choose! outcome hdone using fun i hi => Option.isSome_iff_exists.mp (hdone i hi)
  have hraced := raced_racing (fun client hclient => (hracers client hclient).1) hfresh hdone
  have herrors : ∀ i < clients.length, (outcome i).errors = [] := fun i hi =>
    hraced.errors_eq_nil hspace (List.getElem?_eq_getElem hi)
      (hracers _ (List.getElem_mem hi)).2
  have hissued : ∀ v < clients.length * count, ∃ (i : Nat) (client : Client)
      (outcome : ProcessResult) (r : _), clients[i]? = some client ∧
      (racing clients count earlier schedule).2.result? i = some outcome ∧ r ∈ outcome.issued ∧
      client.settings.layout.write (.nth portfolio capacity v) = .ok r := by
    intro v hv
    obtain ⟨i, client, r, hclient, hr, hwrite⟩ := hraced.issued_of_lt hspace herrors hv
    exact ⟨i, client, outcome i, r, hclient, hdone i (List.getElem?_eq_some_iff.mp hclient).1, hr,
      hwrite⟩
  refine ⟨?_, hissued, ?_⟩
  · intro i client hclient
    have hi : i < clients.length := (List.getElem?_eq_some_iff.mp hclient).1
    have hlength := (hraced.ends i client hclient).1
    rw [herrors i hi] at hlength
    exact ⟨outcome i, hdone i hi, herrors i hi, hlength, fun r hr =>
      hraced.nth_of_issued hspace hclient hr⟩
  · intro alone halone hlayout
    obtain ⟨turns, hraced'⟩ : ∃ turns, Raced [alone] store portfolio capacity
        (clients.length * count) (turnsBefore clients earlier) turns
        fun _ => alone.issuedAlone (clients.length * count) (turnsBefore clients earlier) :=
      raced_alone halone (genuine_turnsBefore clients earlier) hfresh
    have hspace' : [alone].length * (clients.length * count) ≤ 26 * capacity.toNat := by
      rw [List.length_singleton, Nat.one_mul]
      exact hspace
    have herrors' : (alone.issuedAlone (clients.length * count)
        (turnsBefore clients earlier)).errors = [] := by
      refine hraced'.errors_eq_nil (i := 0) hspace' rfl ?_
      rw [List.length_singleton, Nat.sub_self, Nat.zero_mul]
      exact UInt32.le_iff_toNat_le.mp alone.settings.tries_pos
    refine ⟨herrors', fun r => ⟨?_, ?_⟩⟩
    · -- What a client of the race has issued is in one of the first places, and so is issued alone.
      rintro ⟨i, result, hresult, hr⟩
      obtain ⟨client, hclient⟩ :=
        (stagedAfter_trivial (fun client => client.process count) clients earlier
          schedule).staffed i result hresult
      have hi := hdone i (List.getElem?_eq_some_iff.mp hclient).1
      obtain rfl : result = outcome i := Option.some.inj (hresult.symm.trans hi)
      obtain ⟨v, hv, hwrite⟩ := hraced.nth_of_issued hspace hclient hr
      rw [hlayout client (List.mem_of_getElem? hclient)] at hwrite
      obtain ⟨j, other, q, hother, hq, hwritten⟩ :=
        hraced'.issued_of_lt hspace' (fun _ _ => herrors') (by simpa using hv)
      obtain rfl : other = alone := by
        have hmem := List.mem_of_getElem? hother
        exact List.mem_singleton.mp hmem
      obtain rfl : r = q := Except.ok.inj (hwrite.symm.trans hwritten)
      exact hq
    · intro hr
      obtain ⟨v, hv, hwrite⟩ := hraced'.nth_of_issued (i := 0) hspace' rfl hr
      obtain ⟨i, client, result, q, hclient, hresult, hq, hwritten⟩ := hissued v (by simpa using hv)
      rw [hlayout client (List.mem_of_getElem? hclient)] at hwritten
      obtain rfl : r = q := Except.ok.inj (hwrite.symm.trans hwritten)
      exact ⟨i, result, hresult, hq⟩

/-- A client for the portfolio seven with three sequences under each letter and three tries. -/
def racerOfSeven : Client where
  settings :=
    { registry := .standard, layout := ⟨4, by decide, by decide⟩, capacity := 3, tries := 3,
      capacity_pos := by decide, capacity_le := by decide, tries_pos := by decide }
  store := ⟨none, .epoch⟩
  code := 7

/-- Two clients take turns, and then the second one goes on. -/
def inTurnsSchedule : List Nat := (List.replicate 8 [0, 1]).flatten ++ List.replicate 10 1

/-- Two clients issue two references each. The first one wins twice, the second one tries again,
fills the letter `A` and goes on with `B`, and together they have what one client would get. -/
theorem race_issues_first_references_in_turns :
    (racing [racerOfSeven, racerOfSeven] 2 [] inTurnsSchedule).2.result? 0 =
      some ⟨[⟨"7A0001"⟩, ⟨"7A0002"⟩], []⟩ ∧
    (racing [racerOfSeven, racerOfSeven] 2 [] inTurnsSchedule).2.result? 1 =
      some ⟨[⟨"7A0003"⟩, ⟨"7B0001"⟩], []⟩ ∧
    ∀ r, (∃ (i : Nat) (outcome : ProcessResult),
        (racing [racerOfSeven, racerOfSeven] 2 [] inTurnsSchedule).2.result? i = some outcome ∧
        r ∈ outcome.issued) ↔
      r ∈ (racerOfSeven.issuedAlone 4 (turnsBefore [racerOfSeven, racerOfSeven] [])).issued := by
  obtain ⟨hfirst, hsecond⟩ :
      (racing [racerOfSeven, racerOfSeven] 2 [] inTurnsSchedule).2.result? 0 =
        some ⟨[⟨"7A0001"⟩, ⟨"7A0002"⟩], []⟩ ∧
      (racing [racerOfSeven, racerOfSeven] 2 [] inTurnsSchedule).2.result? 1 =
        some ⟨[⟨"7A0003"⟩, ⟨"7B0001"⟩], []⟩ := by
    decide +kernel
  have hracer : Racer ⟨none, .epoch⟩ ⟨7⟩ 3 racerOfSeven := ⟨rfl, rfl, by decide⟩
  refine ⟨hfirst, hsecond, ?_⟩
  refine ((race_issues_first_references [racerOfSeven, racerOfSeven] ⟨none, .epoch⟩ ⟨7⟩ 3 2 []
    inTurnsSchedule ?_ rfl (by decide) ?_).2.2 racerOfSeven hracer ?_).2
  · intro client hclient
    obtain rfl : client = racerOfSeven := by simpa using hclient
    exact ⟨hracer, by decide⟩
  · intro i hi
    obtain rfl | rfl : i = 0 ∨ i = 1 := by
      rw [show [racerOfSeven, racerOfSeven].length = 2 from rfl] at hi
      omega
    · rw [hfirst]
      rfl
    · rw [hsecond]
      rfl
  · intro client hclient
    obtain rfl : client = racerOfSeven := by simpa using hclient
    rfl

end ReferenceMint
