import ReferenceMint.Proofs.Allocating

/-!
# Tries are only lost to others

An allocation that has lost some tries has passed as many versions of the ledger since its first
read. It has written nothing in the meantime, so each of these versions is a claim that somebody
else has committed, between two turns of the allocation itself (`lostTo_of_passed`).

Hence an allocation only runs out of tries if others have committed as many claims of the portfolio,
and one that succeeds has lost no more tries than there were such claims
(`lost_tries_are_lost_races`).
-/

namespace ReferenceMint

open Numeral (limit64)
open Storage (Memory.answer Write stored)
open Store (LedgerStore tripleOf)
open Store.LedgerStore (SilentSince Watched)

/-- Between two turns of a process, others have committed at least so many claims to the ledger that
the client has of the portfolio. -/
def LostTo (clients : List Client) (turns : List (Turn Storage.interface)) (i : Nat)
    (client : Client) (portfolio : PortfolioCode) (count : Nat) : Prop :=
  ∃ (first last : Nat) (t u : Turn Storage.interface), turns[first]? = some t ∧ t.process = i ∧
    turns[last]? = some u ∧ u.process = i ∧
    ∃ places : Finset Nat, count ≤ places.card ∧ ∀ k ∈ places, first < k ∧ k < last ∧
      ∃ v other triple, turns[k]? = some v ∧ v.process ≠ i ∧
        CommitsAt clients turns k other triple ∧ other.store.folder = client.store.folder ∧
        triple.portfolio = portfolio

section

variable {clients : List Client} {turns before first last : List (Turn Storage.interface)} {i : Nat}
  {client : Client} {portfolio : PortfolioCode}

/-- A turn after which others follow is at its place. -/
theorem getElem?_of_concat_prefix {u : Turn Storage.interface} (h : last ++ [u] <+: turns) :
    turns[last.length]? = some u := by
  obtain ⟨later, rfl⟩ := h
  simp

/-- A process that has passed versions since its first read, and has written nothing, has lost as
many races. -/
theorem lostTo_of_passed (hgenuine : Genuine (I := Storage.interface) Memory.answer [] turns)
    (hcommits : CommitsFrom clients turns before.length) {u : Turn Storage.interface} {count : Nat}
    (hfirst : Watched i before first) (hsilent : SilentSince i first last)
    (hlast : last ++ [u] <+: turns) (hprocess : u.process = i)
    (hpassed : client.store.Passed portfolio
      ((stored first).version (client.store.path portfolio) + count) (stored last))
    (hfits : (stored last).version (client.store.path portfolio) ≤ limit64) :
    LostTo clients turns i client portfolio count := by
  have hextends : last <+: turns := (List.prefix_append last [u]).trans hlast
  obtain ⟨places, hcard, hplaces⟩ := Storage.exists_places_of_version (client.store.path portfolio)
    hgenuine hsilent.isPrefix hextends
  have hcount : count ≤ places.card := by
    rcases hpassed with hpassed | hpassed
    · omega
    · omega
  have hbegun : before.length ≤ first.length := hfirst.silent.isPrefix.length_le
  obtain ⟨start, t, rfl, ht, -⟩ := hfirst
  have hread : turns[start.length]? = some t :=
    getElem?_of_concat_prefix (hsilent.isPrefix.trans hextends)
  refine ⟨start.length, last.length, t, u, hread, ht, getElem?_of_concat_prefix hlast, hprocess,
    places, hcount, fun k hk => ?_⟩
  obtain ⟨hge, hlt, v, write, hv, hwrite, hpath⟩ := hplaces k hk
  rw [List.length_append, List.length_singleton] at hge hbegun
  -- The process has written nothing in the meantime, so the write is that of somebody else.
  have hother : v.process ≠ i := by
    obtain ⟨since, rfl, hsince⟩ := hsilent
    obtain ⟨later, rfl⟩ := hextends
    rw [List.append_assoc, List.getElem?_append_right (by simp; omega),
      List.getElem?_append_left (by simp at hlt ⊢; omega)] at hv
    exact fun heq => hsince.not_write hv heq hwrite
  obtain ⟨other, triple, hcommit⟩ := hcommits k v write (by omega) hv hwrite
  obtain ⟨-, expected, c, -, hcommits'⟩ := hcommit.commits hv hwrite
  obtain ⟨hfolder, hportfolio⟩ := LedgerStore.path_injective (hpath.symm.trans hcommits'.path)
  exact ⟨by omega, hlt, v, other, triple, hv, hother, hcommit, hfolder.symm, hportfolio.symm⟩

/-- The versions of a ledger fit into sixty-four bits, if those of an object that was there before
do. -/
theorem version_le_limit64 (hgenuine : Genuine (I := Storage.interface) Memory.answer [] turns)
    (hcommits : CommitsFrom clients turns before.length) (hbefore : before <+: last)
    (hlast : last <+: turns)
    (hfits : ∀ path object, (stored before).get? path = some object →
      (stored turns).version path ≤ limit64) :
    (stored last).version (client.store.path portfolio) ≤ limit64 := by
  cases hobject : (stored before).get? (client.store.path portfolio) with
  | some object =>
    exact Nat.le_trans (Storage.version_stored_le _ hlast) (hfits _ object hobject)
  | none =>
    -- There are no more claims than sequences in the whole space.
    have hstart := LedgerStore.standsAt_of_none hobject
    rw [List.prefix_iff_eq_take.mp (hbefore.trans hlast)] at hstart
    obtain ⟨cursor, version, hstands, -, hle⟩ := standsAt_take hgenuine hcommits (Nat.le_refl _)
      hbefore.length_le hlast.length_le hstart
    rw [← List.prefix_iff_eq_take.mp hlast] at hstands
    rw [hstands.version_eq]
    have hrank := cursor.rank_lt
    have hspace : 26 * 2 ^ 32 ≤ limit64 := by decide
    omega

end

/-- Tries are only lost to others. Whatever settings clients have and however their calls on storage
interleave, a client that runs out of tries has them lost to as many claims of the portfolio that
others have committed while it was under way. A client with an allocation has lost all tries but the
last one so. What was in storage before may be anything, as long as its versions stay within
sixty-four bits. -/
theorem lost_tries_are_lost_races (clients : List Client) (earlier : List Storage.Call)
    (schedule : List Nat)
    (hfits : ∀ path object, (stored (turnsBefore clients earlier)).get? path = some object →
      (stored (allocating clients earlier schedule).1).version path ≤ limit64) :
    ∀ (i : Nat) client, clients[i]? = some client →
      (∀ portfolio tries, (allocating clients earlier schedule).2.result? i =
          some (.error (.outOfTries portfolio tries)) →
        LostTo clients (allocating clients earlier schedule).1 i client portfolio tries.toNat) ∧
      (∀ a, (allocating clients earlier schedule).2.result? i = some (.ok a) →
        1 ≤ a.tries ∧ LostTo clients (allocating clients earlier schedule).1 i client
          a.triple.portfolio (a.tries - 1)) := by
  have hgenuine := genuine_allocating clients earlier schedule
  have hcommits := commitsFrom_allocating clients earlier schedule
  intro i client hclient
  refine ⟨fun portfolio tries hresult => ?_, fun a hresult => ?_⟩
  · obtain ⟨now, hnow, ⟨e, hcheck, heq, -⟩ | ⟨owner, -, hends⟩⟩ := ends_of_allocated hclient hresult
    · -- A refused code is no lost race.
      obtain rfl := Except.error.inj heq
      unfold Settings.check at hcheck
      cases hregistry : client.settings.registry.check client.code with
      | ok owner =>
        rw [hregistry] at hcheck
        exact absurd hcheck (by simp [Except.mapError])
      | error failure =>
        rw [hregistry] at hcheck
        have hkind := Except.error.inj hcheck
        cases failure <;> exact absurd hkind (by simp [AllocationError.ofFailure])
    · obtain ⟨rfl, -, first, hfirst, ⟨last, u, rfl, hprocess, hsilent, -, hsame⟩, hpassed⟩ := hends
      rw [hsame] at hpassed
      exact lostTo_of_passed hgenuine hcommits hfirst hsilent hnow hprocess hpassed
        (version_le_limit64 hgenuine hcommits (hfirst.silent.isPrefix.trans hsilent.isPrefix)
          ((List.prefix_append last [u]).trans hnow) hfits)
  · obtain ⟨now, hnow, ⟨_, -, heq, -⟩ | ⟨owner, -, hends⟩⟩ := ends_of_allocated hclient hresult
    · exact absurd heq (by simp)
    · obtain ⟨first, last, c, tries, hfirst, ⟨u, write, expected, rfl, hprocess, hsilent, -, -⟩,
        htries, hpassed, rfl⟩ := hends
      exact ⟨htries, lostTo_of_passed hgenuine hcommits hfirst hsilent hnow hprocess hpassed
        (version_le_limit64 hgenuine hcommits (hfirst.silent.isPrefix.trans hsilent.isPrefix)
          ((List.prefix_append last [u]).trans hnow) hfits)⟩

/-- Two of the clients read before any of them writes, and one of them reads again before the other
writes. -/
def twiceLostSchedule : List Nat := [1, 1, 2, 2, 0, 0, 0, 1, 2, 1, 1, 1, 1, 2, 2, 2, 2, 2, 1]

/-- One client loses both of its tries to the others, and another one loses its first. -/
theorem lost_tries_are_lost_races_twice : ∃ a,
    (allocating threeClients [] twiceLostSchedule).2.result? 1 =
      some (.error (.outOfTries ⟨7⟩ 2)) ∧
    (allocating threeClients [] twiceLostSchedule).2.result? 2 = some (.ok a) ∧ a.tries = 2 ∧
    LostTo threeClients (allocating threeClients [] twiceLostSchedule).1 1
      (clientOfSeven ⟨3, by decide, by decide⟩ 2 (by decide)) ⟨7⟩ 2 ∧
    LostTo threeClients (allocating threeClients [] twiceLostSchedule).1 2
      (clientOfSeven ⟨3, by decide, by decide⟩ 2 (by decide)) ⟨7⟩ 1 := by
  obtain ⟨hspent, hlast⟩ :
      (allocating threeClients [] twiceLostSchedule).2.result? 1 =
        some (.error (.outOfTries ⟨7⟩ 2)) ∧
      (allocating threeClients [] twiceLostSchedule).2.result? 2 =
        some (.ok (.ofClaim ⟨7⟩ ⟨⟨1⟩, 1, .stays⟩ 2)) := by
    decide +kernel
  have hfits : ∀ path object, (stored (turnsBefore threeClients [])).get? path = some object →
      (stored (allocating threeClients [] twiceLostSchedule).1).version path ≤ limit64 :=
    fun path object hobject => absurd hobject (by simp [turnsBefore, turnsOf, replay,
      Storage.Objects.get?])
  refine ⟨_, hspent, hlast, rfl, ?_, ?_⟩
  · exact (lost_tries_are_lost_races threeClients [] twiceLostSchedule hfits 1 _ rfl).1 _ _ hspent
  · exact ((lost_tries_are_lost_races threeClients [] twiceLostSchedule hfits 2 _ rfl).2 _ hlast).2

end ReferenceMint
