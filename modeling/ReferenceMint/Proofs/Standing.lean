import ReferenceMint.Proofs.Storage.Versions
import ReferenceMint.Proofs.Store.Sightings
import ReferenceMint.Proofs.Uniqueness

/-!
# Where a ledger stands

A ledger in tidy buckets stands at their cursor (`StandsAt`). A write that commits a claim takes it
at this cursor, and the ledger then stands at the cursor after the claim, with a version more
(`StandsAt.commit`). So while every write commits a claim, a ledger only moves from cursor to cursor
(`standsAt_take_succ`), and its rank goes up at least as fast as its version (`standsAt_take`).
-/

namespace ReferenceMint

open Numeral (limit64)
open Storage (Memory.answer Objects Write stored)
open Store (LedgerStore Tidy cursorOf recorded tripleOf)

namespace Store.LedgerStore

/-- The ledger of a portfolio has tidy buckets with a cursor, and a version. -/
def StandsAt (s : LedgerStore) (portfolio : PortfolioCode) (objects : Objects) (cursor : Cursor)
    (version : Nat) : Prop :=
  ∃ rows, s.heldBuckets portfolio objects = .ok rows ∧ Tidy portfolio rows ∧
    cursorOf rows = cursor ∧ objects.version (s.path portfolio) = version

section

variable {s other : LedgerStore} {portfolio : PortfolioCode} {objects : Objects} {cursor : Cursor}
  {version : Nat}

/-- A ledger that is absent stands at the start. -/
theorem standsAt_of_none (h : objects.get? (s.path portfolio) = none) :
    s.StandsAt portfolio objects .start 0 := by
  refine ⟨[], ?_, tidy_nil portfolio, rfl, Objects.version_of_none h⟩
  unfold heldBuckets
  rw [held_of_none h]
  rfl

/-- A ledger stands where it does for every store with its folder. -/
theorem StandsAt.of_folder (h : s.StandsAt portfolio objects cursor version)
    (hfolder : s.folder = other.folder) : other.StandsAt portfolio objects cursor version := by
  obtain ⟨rows, hrows, htidy, hcursor, hversion⟩ := h
  rw [heldBuckets_eq_of_folder hfolder] at hrows
  rw [path_eq_of_folder hfolder] at hversion
  exact ⟨rows, hrows, htidy, hcursor, hversion⟩

/-- The version with which a ledger stands. -/
theorem StandsAt.version_eq (h : s.StandsAt portfolio objects cursor version) :
    objects.version (s.path portfolio) = version := by
  obtain ⟨rows, -, -, -, hversion⟩ := h
  exact hversion

/-- The cursor at which a ledger stands is the one that storage holds. -/
theorem StandsAt.cursorIn (h : s.StandsAt portfolio objects cursor version) :
    s.cursorIn portfolio objects = .ok cursor := by
  obtain ⟨rows, hrows, htidy, hcursor, -⟩ := h
  unfold heldBuckets at hrows
  unfold LedgerStore.cursorIn
  cases hheld : s.held portfolio objects with
  | error failure =>
    rw [hheld] at hrows
    exact absurd hrows (by simp [Except.map])
  | ok ledger =>
    rw [hheld] at hrows
    obtain rfl : ledger.rows = rows := Except.ok.inj hrows
    have hactive : ledger.active = .ok (lastCursor ledger.rows) := htidy.activeCursor
    rw [← hcursor, Except.bind, hactive]
    rfl

/-- A claim is committed at the cursor where the ledger stands, which then stands after the
claim. -/
theorem StandsAt.commit {expected : Cursor} {capacity : UInt32} {write : Write} {c : Claim}
    (h : s.StandsAt portfolio objects cursor version)
    (hcommits : s.Commits portfolio expected capacity objects write c) :
    cursor.claim capacity = some c ∧
      s.StandsAt portfolio (write.applied objects) c.after (version + 1) := by
  obtain ⟨rows, hrows, htidy, rfl, rfl⟩ := h
  obtain ⟨hclaim, hafter⟩ := hcommits.of_tidy hrows htidy
  have htaken := takenAt_of_claim htidy.sorted hclaim
  refine ⟨hclaim, _, hafter, htidy.recorded htaken, cursorOf_recorded htidy htaken, ?_⟩
  have hobject : (write.applied objects).get? (s.path portfolio) =
      some (Storage.rewritten (objects.get? (s.path portfolio)) write.data) := by
    rw [← hcommits.path]
    exact objects.get?_set_self _ _
  rw [Objects.version_of_some hobject]
  rfl

/-- A write to another path leaves a ledger where it stands. -/
theorem StandsAt.applied_of_ne {write : Write} (h : s.StandsAt portfolio objects cursor version)
    (hpath : s.path portfolio ≠ write.path) :
    s.StandsAt portfolio (write.applied objects) cursor version := by
  obtain ⟨rows, hrows, htidy, hcursor, hversion⟩ := h
  refine ⟨rows, ?_, htidy, hcursor, ?_⟩
  · unfold heldBuckets
    rw [held_applied_of_ne hpath]
    exact hrows
  · unfold Objects.version Write.applied at *
    rw [objects.get?_set_ne _ hpath]
    exact hversion

end

end Store.LedgerStore

/-! ## Commits in turns -/

/-- From some place on every turn that writes commits a claim of a client. -/
def CommitsFrom (clients : List Client) (turns : List (Turn Storage.interface)) (start : Nat) :
    Prop :=
  ∀ k t write, start ≤ k → turns[k]? = some t → Write.ofTurn? t = some write →
    ∃ client triple, CommitsAt clients turns k client triple

section

variable {clients : List Client} {turns : List (Turn Storage.interface)} {start : Nat}
  {s : LedgerStore} {portfolio : PortfolioCode} {cursor : Cursor} {version : Nat}

/-- Whatever the write of a turn commits is a claim of the client whose turn it is. -/
theorem CommitsAt.commits {k : Nat} {client : Client} {triple : Triple}
    {t : Turn Storage.interface} {write : Write} (h : CommitsAt clients turns k client triple)
    (ht : turns[k]? = some t) (hwrite : Write.ofTurn? t = some write) :
    clients[t.process]? = some client ∧ ∃ expected c, triple = tripleOf triple.portfolio c ∧
      client.store.Commits triple.portfolio expected client.settings.capacity
        (stored (turns.take k)) write c := by
  obtain ⟨u, other, portfolio, expected, c, hu, hother, hclient, rfl, hcommits⟩ := h
  obtain rfl : t = u := Option.some.inj (ht.symm.trans hu)
  obtain rfl : write = other := Option.some.inj (hwrite.symm.trans hother)
  exact ⟨hclient, expected, c, rfl, hcommits⟩

/-- A turn that commits a claim to a ledger takes it at the cursor where the ledger stands. -/
theorem CommitsAt.standsAt {k : Nat} {client : Client} {triple : Triple}
    (hgenuine : Genuine (I := Storage.interface) Memory.answer [] turns)
    (h : CommitsAt clients turns k client triple) (hfolder : s.folder = client.store.folder)
    (hportfolio : triple.portfolio = portfolio)
    (hstands : s.StandsAt portfolio (stored (turns.take k)) cursor version) :
    ∃ c, triple = tripleOf portfolio c ∧ cursor.claim client.settings.capacity = some c ∧
      s.StandsAt portfolio (stored (turns.take (k + 1))) c.after (version + 1) := by
  obtain ⟨t, write, owner, expected, c, ht, hwrite, -, rfl, hcommits⟩ := h
  obtain rfl : owner = portfolio := hportfolio
  obtain ⟨hclaim, hafter⟩ := (hstands.of_folder hfolder).commit hcommits
  refine ⟨c, rfl, hclaim, ?_⟩
  rcases Storage.stored_take_succ hgenuine ht with ⟨hnone, -⟩ | ⟨other, hother, happlied⟩
  · rw [hwrite] at hnone
    exact absurd hnone (by simp)
  · obtain rfl : write = other := Option.some.inj (hwrite.symm.trans hother)
    rw [happlied]
    exact hafter.of_folder hfolder.symm

/-- With one turn more a ledger stands where it did, or the turn commits a claim to it. -/
theorem standsAt_take_succ (hgenuine : Genuine (I := Storage.interface) Memory.answer [] turns)
    (hcommits : CommitsFrom clients turns start) {n : Nat} (hstart : start ≤ n)
    (hn : n < turns.length)
    (h : s.StandsAt portfolio (stored (turns.take n)) cursor version) :
    s.StandsAt portfolio (stored (turns.take (n + 1))) cursor version ∨
    ∃ client c, CommitsAt clients turns n client (tripleOf portfolio c) ∧
      client.store.folder = s.folder ∧ cursor.claim client.settings.capacity = some c ∧
      s.StandsAt portfolio (stored (turns.take (n + 1))) c.after (version + 1) := by
  have ht : turns[n]? = some turns[n] := List.getElem?_eq_getElem hn
  rcases Storage.stored_take_succ hgenuine ht with ⟨-, hsame⟩ | ⟨write, hwrite, happlied⟩
  · rw [hsame]
    exact .inl h
  · obtain ⟨client, triple, hcommit⟩ := hcommits n _ write hstart ht hwrite
    by_cases hpath : s.path portfolio = write.path
    · -- The path tells that the claim is one of this ledger.
      obtain ⟨-, expected, c, -, hcommits'⟩ := hcommit.commits ht hwrite
      obtain ⟨hfolder, hportfolio⟩ := LedgerStore.path_injective (hpath.trans hcommits'.path)
      obtain ⟨d, rfl, hclaim, hafter⟩ := hcommit.standsAt hgenuine hfolder hportfolio.symm h
      exact .inr ⟨client, d, hcommit, hfolder.symm, hclaim, hafter⟩
    · rw [happlied]
      exact .inl (h.applied_of_ne hpath)

/-- A claim of a client at a cursor has at least its rank, and the cursor after it a higher one. -/
theorem rank_lt_after {client : Client} {c : Claim}
    (h : cursor.claim client.settings.capacity = some c) :
    cursor.rank ≤ c.rank ∧ c.rank < c.after.rank := by
  refine ⟨Cursor.rank_le_of_claim h, ?_⟩
  -- Settings have no capacity at which a claim leaves no trace.
  have hcapacity := client.settings.toNat_capacity_lt
  have hsequence := Cursor.sequence_le_of_claim h
  exact Claim.rank_lt_rank_after (Cursor.lt_of_claim_opened h) (by omega)

/-- A ledger goes on to higher ranks, by one for each version at least. -/
theorem standsAt_take (hgenuine : Genuine (I := Storage.interface) Memory.answer [] turns)
    (hcommits : CommitsFrom clients turns start) {m n : Nat} (hstart : start ≤ m) (hmn : m ≤ n)
    (hn : n ≤ turns.length)
    (h : s.StandsAt portfolio (stored (turns.take m)) cursor version) :
    ∃ cursor' version', s.StandsAt portfolio (stored (turns.take n)) cursor' version' ∧
      cursor.rank ≤ cursor'.rank ∧ version' + cursor.rank ≤ version + cursor'.rank := by
  induction n, hmn using Nat.le_induction with
  | base => exact ⟨cursor, version, h, Nat.le_refl _, Nat.le_refl _⟩
  | succ n hmn ih =>
    obtain ⟨middle, between, hmiddle, hrank, hversion⟩ := ih (by omega)
    rcases standsAt_take_succ hgenuine hcommits (Nat.le_trans hstart hmn) (by omega) hmiddle with
      hsame | ⟨client, c, -, -, hclaim, hafter⟩
    · exact ⟨middle, between, hsame, hrank, hversion⟩
    · obtain ⟨hle, hlt⟩ := rank_lt_after hclaim
      exact ⟨c.after, between + 1, hafter, by omega, by omega⟩

end

end ReferenceMint
