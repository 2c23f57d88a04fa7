import ReferenceMint.Proofs.Allocating
import ReferenceMint.Proofs.Asking

/-!
# An exhausted portfolio stays exhausted

An allocation finds the space exhausted when it sees a cursor without a claim, and only `Z` past its
capacity is such a cursor (`spent_of_exhausted`). It may have seen the cursor some time ago. But a
portfolio that is spent for a capacity remains so: from then on only a larger capacity has claims
left, which are those of the number at `Z`, and each of them leaves `Z` the active letter and does
not lower its index (`Spent.commit`). So what an allocation has seen once holds after all later
turns (`spent_take`), and no allocation with a capacity that is not larger ever succeeds again,
however the run goes on (`exhaustion_is_final`).

Nothing is asked of the ledgers that storage holds at first. They need not be tidy, for only the
active bucket counts, and a letter may have several buckets.
-/

namespace ReferenceMint

open Storage (Memory.answer Objects Write stored)
open Store (LedgerStore recorded tripleOf)

namespace Store.LedgerStore

/-- The active bucket of a portfolio is that of `Z`, and its index is past the capacity. -/
def Spent (s : LedgerStore) (portfolio : PortfolioCode) (capacity : UInt32) (objects : Objects) :
    Prop :=
  ∃ rows b, s.heldBuckets portfolio objects = .ok rows ∧ Bucket.active? rows = some b ∧
    b.letter = .last ∧ capacity < b.index

section

variable {s other : LedgerStore} {portfolio : PortfolioCode} {capacity committing : UInt32}
  {objects : Objects} {expected : Cursor} {write : Write} {c : Claim}

/-- The cursor that storage holds is the one at the active one of the buckets that it holds. -/
theorem exists_buckets_of_cursorIn {seen : Cursor} (h : s.cursorIn portfolio objects = .ok seen) :
    ∃ rows, s.heldBuckets portfolio objects = .ok rows ∧
      ((Bucket.active? rows).map fun b => ⟨b.letter, b.index⟩).getD .start = seen := by
  unfold cursorIn at h
  unfold heldBuckets
  cases hheld : s.held portfolio objects with
  | error failure =>
    rw [hheld] at h
    exact absurd h (by simp [Except.bind])
  | ok ledger =>
    rw [hheld] at h
    cases hactive : ledger.active with
    | error failure =>
      simp only [Except.bind, hactive] at h
      exact absurd h (by simp [Except.map])
    | ok active =>
      simp only [Except.bind, hactive] at h
      refine ⟨ledger.rows, rfl, ?_⟩
      rw [← eq_of_activeCursor hactive]
      exact Except.ok.inj h

/-- Where storage holds a cursor without a claim, the portfolio is spent. -/
theorem spent_of_exhausted {seen : Cursor} (hcursor : s.cursorIn portfolio objects = .ok seen)
    (hclaim : seen.claim capacity = none) : s.Spent portfolio capacity objects := by
  obtain ⟨rows, hrows, rfl⟩ := exists_buckets_of_cursorIn hcursor
  obtain ⟨hlast, hpast⟩ := Cursor.past_of_claim_eq_none hclaim
  cases hactive : Bucket.active? rows with
  | none =>
    -- A portfolio without buckets starts at the first letter.
    rw [hactive] at hlast
    exact absurd hlast (by decide)
  | some b =>
    rw [hactive] at hlast hpast
    exact ⟨rows, b, hrows, hactive, hlast, hpast⟩

/-- A portfolio is spent for every store with the folder. -/
theorem Spent.of_folder (h : s.Spent portfolio capacity objects)
    (hfolder : s.folder = other.folder) : other.Spent portfolio capacity objects := by
  obtain ⟨rows, b, hrows, hrest⟩ := h
  rw [heldBuckets_eq_of_folder hfolder] at hrows
  exact ⟨rows, b, hrows, hrest⟩

/-- A write to another path leaves a portfolio spent. -/
theorem Spent.applied_of_ne (h : s.Spent portfolio capacity objects)
    (hpath : s.path portfolio ≠ write.path) :
    s.Spent portfolio capacity (write.applied objects) := by
  obtain ⟨rows, b, hrows, hrest⟩ := h
  refine ⟨rows, b, ?_, hrest⟩
  unfold heldBuckets
  rw [held_applied_of_ne hpath]
  exact hrows

/-- From a spent portfolio only sequences past the capacity are claimed, under `Z` and at a larger
capacity, and it is still spent then. -/
theorem Spent.commit (h : s.Spent portfolio capacity objects)
    (hcommits : s.Commits portfolio expected committing objects write c) :
    c.letter = .last ∧ capacity < c.sequence ∧
      s.Spent portfolio capacity (write.applied objects) := by
  obtain ⟨rows, b, hrows, hactive, hlast, hpast⟩ := h
  obtain ⟨rows', active, hrows', hcursor, hclaim, hafter⟩ := hcommits.buckets
  obtain rfl : rows = rows' := Except.ok.inj (hrows.symm.trans hrows')
  rw [eq_of_activeCursor hcursor, hactive] at hclaim
  obtain ⟨hletter, hsequence, hopened⟩ := Cursor.claim_at_last hclaim hlast
  refine ⟨hletter, hsequence ▸ hpast, ?_⟩
  -- The claim opens no letter, so it only raises the index of a bucket of `Z`.
  have hrecorded : recorded portfolio rows c =
      Ledger.ordered (Ledger.raise portfolio rows b.letter (successor c.sequence)) := by
    unfold recorded Claim.writes
    rw [hopened, hletter, hlast]
    rfl
  obtain ⟨raised, hraised, hsame, hle⟩ :=
    active?_raise portfolio hactive (successor c.sequence)
  refine ⟨_, raised, hafter, ?_, hsame.trans hlast, ?_⟩
  · rw [hrecorded, active?_ordered]
    exact hraised
  · rw [UInt32.lt_iff_toNat_lt] at hpast ⊢
    omega

end

end Store.LedgerStore

/-! ## Turns at a spent portfolio -/

section

variable {clients : List Client} {turns : List (Turn Storage.interface)} {start : Nat}
  {s : LedgerStore} {portfolio : PortfolioCode} {capacity : UInt32}

/-- A turn that commits a claim of a spent portfolio takes a sequence past the capacity, under `Z`
and at a larger capacity. -/
theorem CommitsAt.of_spent {k : Nat} {client : Client} {triple : Triple}
    (h : CommitsAt clients turns k client triple) (hfolder : client.store.folder = s.folder)
    (hportfolio : triple.portfolio = portfolio)
    (hspent : s.Spent portfolio capacity (stored (turns.take k))) :
    triple.letter = .last ∧ capacity < triple.sequence ∧ capacity < client.settings.capacity := by
  obtain ⟨t, write, owner, expected, c, -, -, -, rfl, hcommits⟩ := h
  obtain rfl : owner = portfolio := hportfolio
  obtain ⟨hletter, hpast, -⟩ := (hspent.of_folder hfolder.symm).commit hcommits
  obtain ⟨ledger, htakes, -⟩ := hcommits.taken
  have hle := htakes.sequence_bounds.2
  have hpos := UInt32.le_iff_toNat_le.mp client.settings.capacity_pos
  have hone : (1 : UInt32).toNat = 1 := rfl
  refine ⟨hletter, hpast, ?_⟩
  rw [UInt32.lt_iff_toNat_lt] at hpast ⊢
  omega

/-- With one turn more a spent portfolio is still spent. -/
theorem spent_take_succ (hgenuine : Genuine (I := Storage.interface) Memory.answer [] turns)
    (hcommits : CommitsFrom clients turns start) {n : Nat} (hstart : start ≤ n)
    (hn : n < turns.length) (h : s.Spent portfolio capacity (stored (turns.take n))) :
    s.Spent portfolio capacity (stored (turns.take (n + 1))) := by
  have ht : turns[n]? = some turns[n] := List.getElem?_eq_getElem hn
  rcases Storage.stored_take_succ hgenuine ht with ⟨-, hsame⟩ | ⟨write, hwrite, happlied⟩
  · rw [hsame]
    exact h
  · rw [happlied]
    by_cases hpath : s.path portfolio = write.path
    · -- The path tells that the claim is one of this ledger.
      obtain ⟨client, triple, hcommit⟩ := hcommits n _ write hstart ht hwrite
      obtain ⟨-, expected, c, -, hcommits'⟩ := hcommit.commits ht hwrite
      obtain ⟨hfolder, rfl⟩ := LedgerStore.path_injective (hpath.trans hcommits'.path)
      obtain ⟨-, -, hspent⟩ := (h.of_folder hfolder).commit hcommits'
      exact hspent.of_folder hfolder.symm
    · exact h.applied_of_ne hpath

/-- A portfolio that is spent stays spent. -/
theorem spent_take (hgenuine : Genuine (I := Storage.interface) Memory.answer [] turns)
    (hcommits : CommitsFrom clients turns start) {m n : Nat} (hstart : start ≤ m) (hmn : m ≤ n)
    (hn : n ≤ turns.length) (h : s.Spent portfolio capacity (stored (turns.take m))) :
    s.Spent portfolio capacity (stored (turns.take n)) := by
  induction n, hmn using Nat.le_induction with
  | base => exact h
  | succ n hmn ih =>
    exact spent_take_succ hgenuine hcommits (Nat.le_trans hstart hmn) (by omega) (ih (by omega))

end

/-! ## Runs of allocations -/

/-- Somebody with the place `j` among the clients allocates for a portfolio, on the folder of a
store, and has not begun in some turns. -/
structure Client.ComesLater (other : Client) (s : LedgerStore) (portfolio : PortfolioCode) (j : Nat)
    (turns : List (Turn Storage.interface)) : Prop where
  /-- The ledgers are the same. -/
  folder : other.store.folder = s.folder
  /-- The portfolio is the same. -/
  code : other.code = portfolio.number.toNat
  /-- None of the turns is the client's. -/
  absent : ∀ t ∈ turns, t.process ≠ j

/-- From the place `k` of a run on, a portfolio has nothing left for a capacity. -/
structure Closed (clients : List Client) (s : LedgerStore) (portfolio : PortfolioCode)
    (capacity : UInt32) (k : Nat) (turns : List (Turn Storage.interface))
    (w : Crowd Storage.interface (Except AllocationError Allocation) Storage.Objects) : Prop where
  /-- Each write to the ledger commits a sequence past the capacity, under `Z` and at a larger
  capacity. -/
  writes : ∀ l u write, k ≤ l → turns[l]? = some u → Write.ofTurn? u = some write →
    write.path = s.path portfolio → ∃ other triple, CommitsAt clients turns l other triple ∧
      triple.portfolio = portfolio ∧ triple.letter = .last ∧ capacity < triple.sequence ∧
      capacity < other.settings.capacity
  /-- An allocation that begins later with a capacity that is not larger never writes and never
  succeeds. -/
  refused : ∀ j other, clients[j]? = some other → other.ComesLater s portfolio j (turns.take k) →
    other.settings.capacity ≤ capacity →
    (∀ u ∈ turns, u.process = j → Write.ofTurn? u = none) ∧ ∀ a, w.result? j ≠ some (.ok a)
  /-- One that begins later and succeeds has a sequence past the capacity, under `Z`. -/
  issued : ∀ j other a, clients[j]? = some other →
    other.ComesLater s portfolio j (turns.take k) → w.result? j = some (.ok a) →
    a.triple.letter = .last ∧ capacity < a.triple.sequence

section

variable {clients : List Client} {earlier : List Storage.Call} {schedule : List Nat}
  {s : LedgerStore} {portfolio : PortfolioCode} {capacity : UInt32}

/-- Who is told that the space is exhausted has looked at the portfolio when it was spent. -/
theorem spent_of_outOfSpace {i : Nat} {client : Client} (hclient : clients[i]? = some client)
    (hresult : (allocating clients earlier schedule).2.result? i =
      some (.error (.outOfSpace portfolio))) :
    ∃ (k : Nat) (t : Turn Storage.interface), (turnsBefore clients earlier).length ≤ k ∧
      (allocating clients earlier schedule).1[k]? = some t ∧ t.process = i ∧
      client.store.Spent portfolio client.settings.capacity
        (stored ((allocating clients earlier schedule).1.take (k + 1))) := by
  obtain ⟨now, hnow, ⟨e, hcheck, heq, -⟩ | ⟨owner, -, hends⟩⟩ := ends_of_allocated hclient hresult
  · obtain ⟨failure, rfl⟩ := Settings.exists_failure_of_check hcheck
    cases failure <;> exact absurd (Except.error.inj heq) (by simp [AllocationError.ofFailure])
  · obtain ⟨rfl, -, moment, seen, ⟨before, t, rfl, ht, hsilent, -⟩, hmoment, hcursor, hclaim⟩ :=
      hends
    obtain ⟨later, hturns⟩ := hmoment.trans hnow
    refine ⟨before.length, t, hsilent.isPrefix.length_le, ?_, ht, ?_⟩
    · rw [← hturns]
      simp
    · have htake : (allocating clients earlier schedule).1.take (before.length + 1) =
          before ++ [t] := by
        rw [← hturns]
        exact List.take_left' (by simp)
      rw [htake]
      exact LedgerStore.spent_of_exhausted hcursor hclaim

/-- Whoever comes later to a spent portfolio and succeeds has a sequence past the capacity, under
`Z` and at a larger capacity. -/
theorem past_of_comesLater {k j : Nat} {other : Client} {a : Allocation}
    (hstart : (turnsBefore clients earlier).length ≤ k)
    (hspent : s.Spent portfolio capacity
      (stored ((allocating clients earlier schedule).1.take k)))
    (hother : clients[j]? = some other)
    (hlater : other.ComesLater s portfolio j ((allocating clients earlier schedule).1.take k))
    (ha : (allocating clients earlier schedule).2.result? j = some (.ok a)) :
    a.triple.letter = .last ∧ capacity < a.triple.sequence ∧
      capacity < other.settings.capacity := by
  obtain ⟨hcheck, l, t, ht, hj, hcommit⟩ := committed_of_allocated hother ha
  have hportfolio : a.triple.portfolio = portfolio := by
    have hnumber := (Settings.check_eq_ok_iff.mp hcheck).1
    rw [hlater.code] at hnumber
    exact PortfolioCode.ext_number (Int.ofNat_inj.mp hnumber)
  have hkl : k ≤ l := by
    by_contra hlt
    refine hlater.absent t (List.mem_of_getElem? (i := l) ?_) hj
    rw [List.getElem?_take_of_lt (Nat.lt_of_not_le hlt)]
    exact ht
  have hl := (List.getElem?_eq_some_iff.mp ht).1
  exact hcommit.of_spent hlater.folder hportfolio
    (spent_take (genuine_allocating clients earlier schedule)
      (commitsFrom_allocating clients earlier schedule) hstart hkl (Nat.le_of_lt hl) hspent)

/-- A spent portfolio is closed. -/
theorem closed_of_spent {k : Nat} (hstart : (turnsBefore clients earlier).length ≤ k)
    (hspent : s.Spent portfolio capacity
      (stored ((allocating clients earlier schedule).1.take k))) :
    Closed clients s portfolio capacity k (allocating clients earlier schedule).1
      (allocating clients earlier schedule).2 where
  writes := by
    intro l u write hkl hu hwrite hpath
    have hcommits := commitsFrom_allocating clients earlier schedule
    obtain ⟨other, triple, hcommit⟩ := hcommits l u write (by omega) hu hwrite
    obtain ⟨-, expected, c, -, hcommits'⟩ := hcommit.commits hu hwrite
    obtain ⟨hfolder, hportfolio⟩ := LedgerStore.path_injective (hpath.symm.trans hcommits'.path)
    have hl := (List.getElem?_eq_some_iff.mp hu).1
    have hspent' := spent_take (genuine_allocating clients earlier schedule) hcommits hstart hkl
      (Nat.le_of_lt hl) hspent
    exact ⟨other, triple, hcommit, hportfolio.symm,
      hcommit.of_spent hfolder.symm hportfolio.symm hspent'⟩
  refused := by
    intro j other hother hlater hle
    have hnone : ∀ a, (allocating clients earlier schedule).2.result? j ≠ some (.ok a) := by
      intro a ha
      obtain ⟨-, -, hlt⟩ := past_of_comesLater hstart hspent hother hlater ha
      rw [UInt32.lt_iff_toNat_lt] at hlt
      rw [UInt32.le_iff_toNat_le] at hle
      omega
    refine ⟨fun u hu hj => ?_, hnone⟩
    obtain ⟨l, hl⟩ := List.mem_iff_getElem?.mp hu
    subst hj
    -- Who writes succeeds.
    by_contra hwrite
    obtain ⟨write, hwrite⟩ := Option.ne_none_iff_exists'.mp hwrite
    obtain ⟨a, _, _, ha, -⟩ := taking_allocation.of_write hother hl hwrite
    exact hnone a ha
  issued := by
    intro j other a hother hlater ha
    obtain ⟨hletter, hpast, -⟩ := past_of_comesLater hstart hspent hother hlater ha
    exact ⟨hletter, hpast⟩

end

/-- Exhaustion is truthful and final. Whatever storage holds at first, whatever settings clients
have and however their calls interleave: who is told that the space of a portfolio is exhausted has
looked at it when `Z` was the active letter and its index past the capacity. From that moment on,
however the run goes on, the portfolio has nothing left for this capacity or a smaller one, and a
larger one only has sequences past it under `Z`. -/
theorem exhaustion_is_final (clients : List Client) (earlier : List Storage.Call)
    (schedule : List Nat) {i : Nat} {client : Client} {portfolio : PortfolioCode}
    (hclient : clients[i]? = some client)
    (hresult : (allocating clients earlier schedule).2.result? i =
      some (.error (.outOfSpace portfolio))) :
    ∃ (k : Nat) (t : Turn Storage.interface),
      (allocating clients earlier schedule).1[k]? = some t ∧ t.process = i ∧
      client.store.Spent portfolio client.settings.capacity
        (stored ((allocating clients earlier schedule).1.take (k + 1))) ∧
      ∀ more : List Nat,
        (allocating clients earlier schedule).1 <+:
          (allocating clients earlier (schedule ++ more)).1 ∧
        Closed clients client.store portfolio client.settings.capacity (k + 1)
          (allocating clients earlier (schedule ++ more)).1
          (allocating clients earlier (schedule ++ more)).2 := by
  obtain ⟨k, t, hstart, ht, hi, hspent⟩ := spent_of_outOfSpace hclient hresult
  refine ⟨k, t, ht, hi, hspent, fun more => ?_⟩
  have hextends := runAfter_prefix Client.allocation clients earlier schedule more
  refine ⟨hextends, closed_of_spent (Nat.le_succ_of_le hstart) ?_⟩
  -- The run begins with the same turns, so the moment is the same.
  obtain ⟨later, hlater⟩ := hextends
  have hlt := (List.getElem?_eq_some_iff.mp ht).1
  have htake : (allocating clients earlier (schedule ++ more)).1.take (k + 1) =
      (allocating clients earlier schedule).1.take (k + 1) := by
    unfold allocating at hlt ⊢
    rw [← hlater, List.take_append_of_le_length hlt]
  rw [htake]
  exact hspent

/-- A ledger that has used up all letters at one sequence each. -/
def usedUpLedger : Store.Ledger := ⟨⟨7⟩, [⟨⟨7⟩, .last, 2⟩], .epoch⟩

/-- Somebody has left that ledger on storage. -/
def usedUpStorage : List Storage.Call :=
  [.put "portfolio=7/reference_buckets.json" usedUpLedger.bytes .always]

/-- A client that finds nothing left at one sequence for each letter, one that comes later with two
for each letter, and another one like the first. -/
def comers : List Client := racingClients ++ racingClients.take 1

/-- The second client gets the second sequence of `Z`, and the third one gets none, however the run
goes on. -/
theorem exhaustion_is_final_larger_capacity :
    (allocating comers usedUpStorage [0, 0]).2.result? 0 = some (.error (.outOfSpace ⟨7⟩)) ∧
    (∃ a, (allocating comers usedUpStorage ([0, 0] ++ [1, 1, 1, 1, 1])).2.result? 1 =
      some (.ok a) ∧ a.triple.letter = .last ∧ (1 : UInt32) < a.triple.sequence) ∧
    ∀ more a, (allocating comers usedUpStorage ([0, 0] ++ more)).2.result? 2 ≠ some (.ok a) := by
  obtain ⟨hexhausted, hissued, habsent⟩ :
      (allocating comers usedUpStorage [0, 0]).2.result? 0 =
        some (.error (.outOfSpace ⟨7⟩)) ∧
      (allocating comers usedUpStorage ([0, 0] ++ [1, 1, 1, 1, 1])).2.result? 1 =
        some (.ok (.ofClaim ⟨7⟩ ⟨.last, 2, .fillsLast⟩ 1)) ∧
      ∀ t ∈ (allocating comers usedUpStorage [0, 0]).1, t.process ≠ 1 ∧ t.process ≠ 2 := by
    decide +kernel
  obtain ⟨k, t, ht, -, -, hfinal⟩ := exhaustion_is_final comers usedUpStorage [0, 0] rfl hexhausted
  have hbefore : ∀ more, ∀ u ∈ (allocating comers usedUpStorage ([0, 0] ++ more)).1.take (k + 1),
      u.process ≠ 1 ∧ u.process ≠ 2 := by
    intro more u hu
    obtain ⟨later, hlater⟩ := (hfinal more).1
    rw [← hlater, List.take_append_of_le_length (List.getElem?_eq_some_iff.mp ht).1] at hu
    exact habsent u (List.mem_of_mem_take hu)
  refine ⟨hexhausted, ⟨_, hissued, ?_⟩, fun more a => ?_⟩
  · exact (hfinal _).2.issued 1 _ _ rfl ⟨rfl, rfl, fun u hu => (hbefore _ u hu).1⟩ hissued
  · exact ((hfinal more).2.refused 2 _ rfl ⟨rfl, rfl, fun u hu => (hbefore _ u hu).2⟩
      (by decide)).2 a

end ReferenceMint
