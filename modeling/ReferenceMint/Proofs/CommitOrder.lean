import ReferenceMint.Proofs.Allocating

/-!
# Sequences come out in order

Each claim that is committed to a ledger comes after those that were committed before: it has a
later letter, or the same letter and a higher sequence (`Triple.Before`). For the ledger stands
behind a claim that it holds, and every later claim is taken where the ledger stands by then
(`CommitsAt.before`).

An allocation commits in one of its own turns. So if it is done before another one begins, its
triple comes before the other's (`claims_commit_in_order`).
-/

namespace ReferenceMint

open Storage (Memory.answer Write stored)
open Store (LedgerStore Tidy tripleOf)

/-- The triple has an earlier letter, or the same letter and a lower sequence. -/
def Triple.Before (t u : Triple) : Prop :=
  t.letter < u.letter ∨ (t.letter = u.letter ∧ t.sequence < u.sequence)

/-- A triple does not have a later letter than the ones after it. -/
theorem Triple.Before.letter_le {t u : Triple} (h : t.Before u) : t.letter ≤ u.letter := by
  rcases h with hlt | ⟨heq, -⟩
  · exact Nat.le_of_lt (Letter.lt_iff.mp hlt)
  · exact Nat.le_of_eq (congrArg (fun a : Letter => a.position.val) heq)

/-- No triple comes before itself. -/
theorem Triple.Before.ne {t u : Triple} (h : t.Before u) : t ≠ u := by
  rintro rfl
  rcases h with hlt | ⟨-, hlt⟩
  · exact Letter.ne_of_lt hlt rfl
  · exact UInt32.lt_irrefl _ hlt

/-- The triple of a claim comes before those of claims with higher rank. -/
theorem before_of_rank_lt {portfolio other : PortfolioCode} {c d : Claim} (h : c.rank < d.rank) :
    (tripleOf portfolio c).Before (tripleOf other d) := by
  have hsequence := d.sequence.toNat_lt
  unfold Claim.rank rank at h
  rcases Nat.lt_trichotomy c.letter.position.val d.letter.position.val with hlt | heq | hgt
  · exact .inl (Letter.lt_iff.mpr hlt)
  · rw [heq] at h
    exact .inr ⟨Letter.ext_position heq, UInt32.lt_iff_toNat_lt.mpr (by
      show c.sequence.toNat < d.sequence.toNat
      omega)⟩
  · omega

/-- At some moment one process has taken all its turns, and the other has not taken any. -/
def Precedes (turns : List (Turn Storage.interface)) (i j : Nat) : Prop :=
  ∃ moment, (∀ t ∈ turns.drop moment, t.process ≠ i) ∧ ∀ t ∈ turns.take moment, t.process ≠ j

/-- All turns of a process come before those of one that it precedes. -/
theorem Precedes.lt {turns : List (Turn Storage.interface)} {i j k l : Nat}
    {t u : Turn Storage.interface} (h : Precedes turns i j) (ht : turns[k]? = some t)
    (hi : t.process = i) (hu : turns[l]? = some u) (hj : u.process = j) : k < l := by
  obtain ⟨moment, hdone, hnone⟩ := h
  have hk : k < moment := by
    by_contra hge
    exact hdone t (mem_drop_of_getElem? ht (Nat.le_of_not_lt hge)) hi
  have hl : moment ≤ l := by
    by_contra hlt
    have hmem : u ∈ turns.take moment := by
      apply List.mem_of_getElem? (i := l)
      rw [List.getElem?_take_of_lt (Nat.lt_of_not_le hlt)]
      exact hu
    exact hnone u hmem hj
  exact Nat.lt_of_lt_of_le hk hl

section

variable {clients : List Client} {turns : List (Turn Storage.interface)} {start : Nat}

/-- What is no ledger of the portfolio does not become one. -/
theorem heldBuckets_eq_error {s : LedgerStore} {portfolio : PortfolioCode} {failure : Failure}
    (hgenuine : Genuine (I := Storage.interface) Memory.answer [] turns)
    (hcommits : CommitsFrom clients turns start) {n : Nat} (hstart : start ≤ n)
    (hn : n ≤ turns.length)
    (h : s.heldBuckets portfolio (stored (turns.take start)) = .error failure) :
    s.heldBuckets portfolio (stored (turns.take n)) = .error failure := by
  induction n, hstart using Nat.le_induction with
  | base => exact h
  | succ n hstart ih =>
    have hbefore := ih (by omega)
    have ht : turns[n]? = some turns[n] := List.getElem?_eq_getElem (by omega)
    rcases Storage.stored_take_succ hgenuine ht with ⟨-, hsame⟩ | ⟨write, hwrite, happlied⟩
    · rw [hsame]
      exact hbefore
    · by_cases hpath : s.path portfolio = write.path
      · -- A claim is only committed to a ledger that storage holds.
        obtain ⟨client, triple, hcommit⟩ := hcommits n _ write hstart ht hwrite
        obtain ⟨-, expected, c, -, hcommits'⟩ := hcommit.commits ht hwrite
        obtain ⟨hfolder, rfl⟩ := LedgerStore.path_injective (hpath.trans hcommits'.path)
        obtain ⟨rows, -, hrows, -⟩ := hcommits'.buckets
        rw [LedgerStore.heldBuckets_eq_of_folder hfolder, hrows] at hbefore
        exact absurd hbefore (by simp)
      · unfold LedgerStore.heldBuckets
        rw [happlied, LedgerStore.held_applied_of_ne hpath]
        exact hbefore

/-- The claims that are committed to a ledger come in order, if its buckets were tidy at first. -/
theorem CommitsAt.before (hgenuine : Genuine (I := Storage.interface) Memory.answer [] turns)
    (hcommits : CommitsFrom clients turns start) {k l : Nat} {client client' : Client}
    {triple triple' : Triple}
    (htidy : ∀ rows, client.store.heldBuckets triple.portfolio (stored (turns.take start)) =
      .ok rows → Tidy triple.portfolio rows)
    (hstart : start ≤ k) (hkl : k < l) (h : CommitsAt clients turns k client triple)
    (h' : CommitsAt clients turns l client' triple')
    (hfolder : client.store.folder = client'.store.folder)
    (hportfolio : triple.portfolio = triple'.portfolio) : triple.Before triple' := by
  have hl : l < turns.length := by
    obtain ⟨t, -, -, -, -, ht, -⟩ := h'
    exact (List.getElem?_eq_some_iff.mp ht).1
  have hbegin : ∃ cursor version, client.store.StandsAt triple.portfolio
      (stored (turns.take start)) cursor version := by
    cases hrows : client.store.heldBuckets triple.portfolio (stored (turns.take start)) with
    | ok rows => exact ⟨_, _, rows, hrows, htidy rows hrows, rfl, rfl⟩
    | error failure =>
      have herror := heldBuckets_eq_error hgenuine hcommits hstart (by omega) hrows
      obtain ⟨_, write, owner, expected, c, -, -, -, rfl, hcommit⟩ := h
      obtain ⟨rows, -, hrows', -⟩ := hcommit.buckets
      have hclash := herror.symm.trans hrows'
      exact absurd hclash (by simp)
  obtain ⟨cursor, version, hstands⟩ := hbegin
  -- The ledger stands at some cursor when the first claim is committed, and behind the claim then.
  obtain ⟨cursor', version', hstands', -⟩ :=
    standsAt_take hgenuine hcommits (Nat.le_refl _) hstart (by omega) hstands
  obtain ⟨c, hc, hclaim, hafter⟩ := h.standsAt hgenuine rfl rfl hstands'
  obtain ⟨last, _, hlast, hle, -⟩ :=
    standsAt_take hgenuine hcommits (by omega) hkl (by omega) hafter
  obtain ⟨d, hd, hclaim', -⟩ := h'.standsAt hgenuine hfolder hportfolio.symm hlast
  rw [hc, hd]
  apply before_of_rank_lt
  calc c.rank < c.after.rank := (rank_lt_after hclaim).2
    _ ≤ last.rank := hle
    _ ≤ d.rank := (rank_lt_after hclaim').1

end

/-- Sequences come out in the order of their commits, and letters never go back. Whatever settings
clients have and however their calls on storage interleave, every write of a client commits a claim,
and of two claims that are committed to one ledger, the earlier one has the triple that comes
before. A client with an allocation has committed its triple. So if a client is done before another
begins, then its triple comes before the other's.

Storage may hold anything before, as long as the buckets of its ledgers are tidy. Those that stores
write are, and storage without objects has none. In a ledger with two buckets of one letter, a claim
raises the first of them and the last of them stays the active one. -/
theorem claims_commit_in_order (clients : List Client) (earlier : List Storage.Call)
    (schedule : List Nat)
    (htidy : ∀ client ∈ clients, ∀ portfolio rows,
      client.store.heldBuckets portfolio (stored (turnsBefore clients earlier)) = .ok rows →
      Tidy portfolio rows) :
    (∀ k t write client, (allocating clients earlier schedule).1[k]? = some t →
      Write.ofTurn? t = some write → clients[t.process]? = some client →
      ∃ triple, CommitsAt clients (allocating clients earlier schedule).1 k client triple) ∧
    (∀ k l client client' triple triple', k < l →
      CommitsAt clients (allocating clients earlier schedule).1 k client triple →
      CommitsAt clients (allocating clients earlier schedule).1 l client' triple' →
      client.store.folder = client'.store.folder → triple.portfolio = triple'.portfolio →
      triple.Before triple' ∧ triple.letter ≤ triple'.letter) ∧
    (∀ (i : Nat) client a, clients[i]? = some client →
      (allocating clients earlier schedule).2.result? i = some (.ok a) →
      ∃ k t, (allocating clients earlier schedule).1[k]? = some t ∧ t.process = i ∧
        CommitsAt clients (allocating clients earlier schedule).1 k client a.triple) ∧
    (∀ (i j : Nat) client client' a b, clients[i]? = some client → clients[j]? = some client' →
      (allocating clients earlier schedule).2.result? i = some (.ok a) →
      (allocating clients earlier schedule).2.result? j = some (.ok b) →
      client.store.folder = client'.store.folder → a.triple.portfolio = b.triple.portfolio →
      Precedes (allocating clients earlier schedule).1 i j → a.triple.Before b.triple) := by
  have hgenuine := genuine_allocating clients earlier schedule
  have hcommits := commitsFrom_allocating clients earlier schedule
  have hordered : ∀ k l client client' triple triple', k < l →
      CommitsAt clients (allocating clients earlier schedule).1 k client triple →
      CommitsAt clients (allocating clients earlier schedule).1 l client' triple' →
      client.store.folder = client'.store.folder → triple.portfolio = triple'.portfolio →
      triple.Before triple' := by
    intro k l client client' triple triple' hkl h h' hfolder hportfolio
    have hmem : client ∈ clients := by
      obtain ⟨t, _, _, _, _, -, -, hclient, -⟩ := h
      exact List.mem_of_getElem? hclient
    have hstart : (turnsBefore clients earlier).length ≤ k := by
      obtain ⟨t, _, _, _, _, ht, -, hclient, -⟩ := h
      exact length_turnsBefore_le ht hclient
    refine h.before hgenuine hcommits ?_ hstart hkl h' hfolder hportfolio
    intro rows hrows
    have htake : (allocating clients earlier schedule).1.take
        (turnsBefore clients earlier).length = turnsBefore clients earlier := List.take_left
    rw [htake] at hrows
    exact htidy client hmem _ rows hrows
  have hreturned : ∀ (i : Nat) client a, clients[i]? = some client →
      (allocating clients earlier schedule).2.result? i = some (.ok a) →
      ∃ k t, (allocating clients earlier schedule).1[k]? = some t ∧ t.process = i ∧
        CommitsAt clients (allocating clients earlier schedule).1 k client a.triple := by
    intro i client a hclient ha
    obtain ⟨now, ⟨later, hnow⟩, ⟨_, -, hfailed, -⟩ | ⟨portfolio, -, hends⟩⟩ :=
      ends_of_allocated hclient ha
    · exact absurd hfailed (by simp)
    · obtain ⟨first, middle, c, tries, -, ⟨t, write, expected, rfl, rfl, -, hwrite, hcommit⟩, -, -,
        rfl⟩ := hends
      -- The claim is committed in the last turn of the client.
      rw [List.append_assoc] at hnow
      have ht : (allocating clients earlier schedule).1[middle.length]? = some t := by
        rw [← hnow]
        simp
      refine ⟨middle.length, t, ht, rfl, t, write, portfolio, expected, c, ht, hwrite, hclient, rfl,
        ?_⟩
      rw [← hnow, List.take_left]
      exact hcommit
  refine ⟨?_, ?_, hreturned, ?_⟩
  · intro k t write client ht hwrite hclient
    have hk : (turnsBefore clients earlier).length ≤ k := length_turnsBefore_le ht hclient
    obtain ⟨other, triple, hcommit⟩ := hcommits k t write hk ht hwrite
    obtain ⟨hother, -⟩ := hcommit.commits ht hwrite
    obtain rfl : client = other := Option.some.inj (hclient.symm.trans hother)
    exact ⟨triple, hcommit⟩
  · intro k l client client' triple triple' hkl h h' hfolder hportfolio
    have hbefore := hordered k l client client' triple triple' hkl h h' hfolder hportfolio
    exact ⟨hbefore, hbefore.letter_le⟩
  · intro i j client client' a b hclient hclient' ha hb hfolder hportfolio hprecedes
    obtain ⟨k, t, ht, hi, hcommit⟩ := hreturned i client a hclient ha
    obtain ⟨l, u, hu, hj, hcommit'⟩ := hreturned j client' b hclient' hb
    exact hordered k l client client' _ _ (hprecedes.lt ht hi hu hj) hcommit hcommit' hfolder
      hportfolio

/-- After the race the third client allocates. -/
def raceThenOne : List Nat := raceSchedule ++ [2, 2, 2, 2, 2]

/-- Whoever wins the race gets the letter `A`, and the third client comes behind it under a later
letter. -/
theorem claims_commit_in_order_race : ∃ a b,
    (allocating threeClients [] raceThenOne).2.result? 0 = some (.ok a) ∧
    (allocating threeClients [] raceThenOne).2.result? 2 = some (.ok b) ∧
    a.triple = ⟨⟨7⟩, ⟨0⟩, 1⟩ ∧ b.triple = ⟨⟨7⟩, ⟨1⟩, 2⟩ ∧ a.triple.Before b.triple := by
  obtain ⟨hfirst, hlast, hdone, hnone⟩ :
      (allocating threeClients [] raceThenOne).2.result? 0 =
        some (.ok (.ofClaim ⟨7⟩ ⟨⟨0⟩, 1, .opens ⟨1⟩⟩ 1)) ∧
      (allocating threeClients [] raceThenOne).2.result? 2 =
        some (.ok (.ofClaim ⟨7⟩ ⟨⟨1⟩, 2, .opens ⟨2⟩⟩ 1)) ∧
      (∀ t ∈ (allocating threeClients [] raceThenOne).1.drop 11, t.process ≠ 0) ∧
      ∀ t ∈ (allocating threeClients [] raceThenOne).1.take 11, t.process ≠ 2 := by
    decide +kernel
  refine ⟨_, _, hfirst, hlast, rfl, rfl, ?_⟩
  refine (claims_commit_in_order threeClients [] raceThenOne ?_).2.2.2 0 2 _ _ _ _ rfl rfl
    hfirst hlast rfl rfl ⟨11, hdone, hnone⟩
  intro client _ portfolio rows hrows
  obtain rfl := Except.ok.inj hrows
  exact Store.tidy_nil portfolio

end ReferenceMint
