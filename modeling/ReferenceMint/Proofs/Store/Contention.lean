import ReferenceMint.Proofs.Store.LedgerStore

/-!
# Claims among other claims

Between two of its calls a claim may find that others have written. Its head may be answered with a
version that the bytes it gets are newer than, and there may be further writes before its put. But
the put demands the version of the head, and versions only go up: a put that takes effect finds the
object with the very bytes that were read (`held_of_saw`).

So whatever others do, a claim that takes effect has made exactly one write, which commits the claim
that it replies with, and any other claim has written nothing (`claim_obeys`). Reads never write
(`active_obeys`).
-/

namespace ReferenceMint.Store.LedgerStore

open Numeral (limit64)
open Storage (Memory.answer Objects Object Write token stored get?_stored)

/-- The process has written nothing. -/
def Silent (process : Nat) (turns : List (Turn Storage.interface)) : Prop :=
  ∀ t ∈ turns, t.process = process → Write.ofTurn? t = none

/-- The process has made exactly one write, which committed the claim. -/
def Committed (s : LedgerStore) (process : Nat) (portfolio : PortfolioCode) (expected : Cursor)
    (capacity : UInt32) (c : Claim) (turns : List (Turn Storage.interface)) : Prop :=
  ∃ earlier t later write, turns = earlier ++ t :: later ∧ Silent process earlier ∧
    Silent process later ∧ t.process = process ∧ Write.ofTurn? t = some write ∧
    s.Commits portfolio expected capacity (stored earlier) write c

/-- The stage of a process that only reads: it has written nothing. -/
def readingStage {α : Type} (process : Nat) : Stage Storage.interface α :=
  fun _ turns => Silent process turns

/-- The stage of a process that claims: it has written nothing, unless it has the claim as result;
then it has committed it. -/
def claimingStage (s : LedgerStore) (process : Nat) (portfolio : PortfolioCode) (expected : Cursor)
    (capacity : UInt32) : Stage Storage.interface (Except Failure ClaimReply)
  | some (.ok (.claimed owner c)), turns =>
    owner = portfolio ∧ s.Committed process portfolio expected capacity c turns
  | _, turns => Silent process turns

/-! ## What others cannot change -/

section

variable {s : LedgerStore} {process : Nat} {portfolio : PortfolioCode} {expected : Cursor}
  {capacity : UInt32} {turns later : List (Turn Storage.interface)}

/-- Others do not write for the process. -/
theorem Silent.append (h : Silent process turns) (hlater : Others process later) :
    Silent process (turns ++ later) := by
  intro t ht hprocess
  rcases List.mem_append.mp ht with ht | ht
  · exact h t ht hprocess
  · exact absurd hprocess (hlater t ht)

/-- A turn that does not write leaves the process without a write. -/
theorem Silent.concat {t : Turn Storage.interface} (h : Silent process turns)
    (ht : Write.ofTurn? t = none) : Silent process (turns ++ [t]) := by
  intro u hu hprocess
  rcases List.mem_append.mp hu with hu | hu
  · exact h u hu hprocess
  · obtain rfl : u = t := by simpa using hu
    exact ht

/-- What is committed stays committed. -/
theorem Committed.append {c : Claim} (h : s.Committed process portfolio expected capacity c turns)
    (hlater : Others process later) :
    s.Committed process portfolio expected capacity c (turns ++ later) := by
  obtain ⟨earlier, t, middle, write, rfl, hearlier, hmiddle, hprocess, hwrite, hcommits⟩ := h
  refine ⟨earlier, t, middle ++ later, write, ?_, hearlier, hmiddle.append hlater, hprocess, hwrite,
    hcommits⟩
  simp

/-- A process that has written nothing has no turn that writes. -/
theorem Silent.not_write {k : Nat} {t : Turn Storage.interface} {write : Write}
    (h : Silent process turns) (ht : turns[k]? = some t) (hprocess : t.process = process) :
    Write.ofTurn? t ≠ some write := by
  rw [h t (List.mem_of_getElem? ht) hprocess]
  simp

/-- What is committed is committed by some turn of the process, the only one in which it writes. -/
theorem Committed.exists_turn {c : Claim}
    (h : s.Committed process portfolio expected capacity c turns) :
    ∃ (place : Nat) (t : Turn Storage.interface) (write : Write), turns[place]? = some t ∧
      t.process = process ∧ Write.ofTurn? t = some write ∧
      s.Commits portfolio expected capacity (stored (turns.take place)) write c ∧
      ∀ (k : Nat) (u : Turn Storage.interface) (other : Write), turns[k]? = some u →
        u.process = process → Write.ofTurn? u = some other → k = place := by
  obtain ⟨earlier, t, later, write, rfl, hearlier, hlater, hprocess, hwrite, hcommits⟩ := h
  refine ⟨earlier.length, t, write, by simp, hprocess, hwrite, by rwa [List.take_left], ?_⟩
  intro k u other hu hprocess' hother
  -- Before its turn and after it, the process has written nothing.
  rcases Nat.lt_trichotomy k earlier.length with hk | hk | hk
  · rw [List.getElem?_append_left hk] at hu
    exact absurd hother (hearlier.not_write hu hprocess')
  · exact hk
  · rw [List.getElem?_append_right (Nat.le_of_lt hk)] at hu
    obtain ⟨j, hj⟩ : ∃ j, k - earlier.length = j + 1 := ⟨k - earlier.length - 1, by omega⟩
    rw [hj, List.getElem?_cons_succ] at hu
    exact absurd hother (hlater.not_write hu hprocess')

/-- Whatever turn of the process writes, it commits the claim. -/
theorem Committed.commits {c : Claim} (h : s.Committed process portfolio expected capacity c turns)
    {k : Nat} {t : Turn Storage.interface} {write : Write} (ht : turns[k]? = some t)
    (hprocess : t.process = process) (hwrite : Write.ofTurn? t = some write) :
    s.Commits portfolio expected capacity (stored (turns.take k)) write c := by
  obtain ⟨place, u, other, hu, -, hother, hcommits, honly⟩ := h.exists_turn
  obtain rfl := honly k t write ht hprocess hwrite
  obtain rfl : t = u := Option.some.inj (ht.symm.trans hu)
  obtain rfl : write = other := Option.some.inj (hwrite.symm.trans hother)
  exact hcommits

/-- Others do not change what a process that claims has done. -/
theorem claimingStage_steady :
    (s.claimingStage process portfolio expected capacity).Steady process := by
  intro result turns later hlater h
  unfold claimingStage at h ⊢
  split at h
  · exact ⟨h.1, h.2.append hlater⟩
  · exact h.append hlater

end

/-! ## Reads -/

/-- What a read has seen: nothing, or the ledger in an object with at least the version that it goes
with. -/
def Saw (s : LedgerStore) (portfolio : PortfolioCode) (ledger : Ledger) (objects : Objects) :
    Option String → Prop
  | none => ledger = .empty portfolio s.clock
  | some text => ∃ version object, text = token version ∧
    objects.get? (s.path portfolio) = some object ∧ version ≤ object.version ∧
    decode (s.path portfolio) portfolio object.data = .ok ledger

/-- A put on what a read has seen only takes effect where storage still holds the ledger that was
seen. -/
theorem held_of_saw {s : LedgerStore} {portfolio : PortfolioCode} {ledger : Ledger}
    {version : Option String} {turns later : List (Turn Storage.interface)}
    (hsaw : s.Saw portfolio ledger (stored turns) version)
    (hholds : (demand version).holds ((stored (turns ++ later)).get? (s.path portfolio)) = true) :
    s.held portfolio (stored (turns ++ later)) = .ok ledger ∧
      ∀ object, (stored (turns ++ later)).get? (s.path portfolio) = some object →
        object.version ≤ limit64 := by
  cases version with
  | none =>
    have hnone := Storage.holds_absent_iff.mp hholds
    rw [held_of_none hnone, hsaw]
    exact ⟨rfl, by simp [hnone]⟩
  | some text =>
    obtain ⟨version, seen, rfl, hseen, hle, hdecode⟩ := hsaw
    obtain ⟨object, hobject, hversion, hfits⟩ := Storage.holds_version_iff.mp hholds
    obtain ⟨other, hother, hsince⟩ := get?_stored hseen later
    obtain rfl : object = other := Option.some.inj (hobject.symm.trans hother)
    -- The version has come back to where it was, so it has never moved.
    have hsame : object = seen := by
      rcases hsince with heq | hlt
      · exact heq
      · omega
    rw [held_of_some hobject, hsame]
    refine ⟨hdecode, fun other hother => ?_⟩
    rw [hobject] at hother
    rw [← Option.some.inj hother, hversion]
    exact hfits

/-! ## The calls on storage -/

section

variable {α : Type} {process : Nat} {stage : Stage Storage.interface α} {path : String}
  {turns : List (Turn Storage.interface)}

/-- A head is answered with what storage holds, and writes nothing. -/
theorem head_obeys {next : Storage.Reply (.head path) → Program Storage.interface α}
    (hnone : stage none turns) (hturns : Silent process turns)
    (hnext : ∀ later, Silent process (turns ++ later) →
      (next (.ok (((stored (turns ++ later)).get? path).map fun o => o.info path))).Obeys
        Memory.answer [] process stage (turns ++ later)) :
    (Program.call (I := Storage.interface) (.head path) next).Obeys
      Memory.answer [] process stage turns := by
  apply Program.obeys_call hnone
  intro later hlater reply hreply
  have hsilent : Silent process (turns ++ later ++ [⟨process, .head path, reply⟩]) :=
    (hturns.append hlater).concat rfl
  have hstored : stored (turns ++ later ++ [⟨process, .head path, reply⟩]) =
      stored (turns ++ later) := replay_concat _ _
  have hanswer : reply =
      .ok (((stored (turns ++ later ++ [⟨process, .head path, reply⟩])).get? path).map
        fun o => o.info path) := by
    rw [hstored]
    exact hreply
  -- The turn of the head counts among the later ones.
  rw [List.append_assoc] at hsilent hanswer ⊢
  have hobeys := hnext _ hsilent
  rw [← hanswer] at hobeys
  exact hobeys

/-- A get of an object that is there is answered with the bytes that storage holds, and writes
nothing. -/
theorem get_obeys {next : Storage.Reply (.get path) → Program Storage.interface α} {object : Object}
    (hnone : stage none turns) (hturns : Silent process turns)
    (hobject : (stored turns).get? path = some object)
    (hnext : ∀ later newer, Silent process (turns ++ later) →
      (stored (turns ++ later)).get? path = some newer → object.Since newer →
      (next (.ok newer.data)).Obeys Memory.answer [] process stage (turns ++ later)) :
    (Program.call (I := Storage.interface) (.get path) next).Obeys
      Memory.answer [] process stage turns := by
  apply Program.obeys_call hnone
  intro later hlater reply hreply
  have hsilent : Silent process (turns ++ later ++ [⟨process, .get path, reply⟩]) :=
    (hturns.append hlater).concat rfl
  have hstored : stored (turns ++ later ++ [⟨process, .get path, reply⟩]) =
      stored (turns ++ later) :=
    (replay_concat _ _).trans (Storage.Memory.answer_get_snd _ _)
  -- Others may have replaced the object since it was seen, but never by an older one.
  obtain ⟨newer, hnewer, hsince⟩ := get?_stored hobject later
  have hanswer : reply = .ok newer.data :=
    hreply.trans (Storage.Memory.answer_get_fst hnewer)
  rw [← hstored] at hnewer
  rw [List.append_assoc] at hsilent hnewer ⊢
  rw [hanswer] at hsilent hnewer ⊢
  exact hnext _ newer hsilent hnewer hsince

/-- A put takes effect if its demand holds, and else writes nothing. -/
theorem put_obeys {data : ByteArray} {required : Storage.Precondition}
    {next : Storage.Reply (.put path data required) → Program Storage.interface α}
    (hnone : stage none turns) (hturns : Silent process turns)
    (hwritten : ∀ later t version, Silent process (turns ++ later) →
      required.holds ((stored (turns ++ later)).get? path) = true → t.process = process →
      Write.ofTurn? t = some ⟨process, path, data, version⟩ →
      version = token (Storage.rewritten ((stored (turns ++ later)).get? path) data).version →
      (next (.ok (.written version))).Obeys Memory.answer [] process stage
        (turns ++ later ++ [t]))
    (hrefused : ∀ later current, Silent process (turns ++ later) →
      (next (.ok (.refused current))).Obeys Memory.answer [] process stage (turns ++ later)) :
    (Program.call (I := Storage.interface) (.put path data required) next).Obeys
      Memory.answer [] process stage turns := by
  apply Program.obeys_call hnone
  intro later hlater reply hreply
  have hsilent := hturns.append hlater
  -- The demand is checked against what storage holds in the turn of the put itself.
  by_cases hholds : required.holds ((stored (turns ++ later)).get? path) = true
  · have hanswer : reply = .ok (.written
        (token (Storage.rewritten ((stored (turns ++ later)).get? path) data).version)) := by
      rw [hreply, Storage.Memory.answer_put_of_holds data hholds]
    subst hanswer
    exact hwritten later _ _ hsilent hholds rfl rfl rfl
  · have hanswer : reply = .ok (.refused
        (Storage.currentToken ((stored (turns ++ later)).get? path))) := by
      rw [hreply, Storage.Memory.answer_put_of_not_holds data hholds]
    have hsilent' : Silent process
        (turns ++ later ++ [⟨process, .put path data required, reply⟩]) := by
      apply hsilent.concat
      rw [hanswer]
      rfl
    rw [hanswer] at hsilent' ⊢
    rw [List.append_assoc] at hsilent' ⊢
    exact hrefused _ _ hsilent'

end

/-! ## Reads and claims -/

/-- The stage of a read of a ledger: nothing was written, and the result was seen. -/
def seeingStage (s : LedgerStore) (process : Nat) (portfolio : PortfolioCode) :
    Stage Storage.interface (Except Failure (Ledger × Option String))
  | some (.ok (ledger, version)), turns =>
    Silent process turns ∧ s.Saw portfolio ledger (stored turns) version
  | _, turns => Silent process turns

variable {s : LedgerStore} {process : Nat} {portfolio : PortfolioCode} {expected : Cursor}
  {capacity : UInt32} {turns : List (Turn Storage.interface)}

/-- A process that is past a read has written nothing. -/
theorem silent_of_seeingStage {result : Option (Except Failure (Ledger × Option String))}
    (h : s.seeingStage process portfolio result turns) : Silent process turns := by
  unfold seeingStage at h
  split at h
  · exact h.1
  · exact h

/-- A process whose result is no claim has written nothing. -/
theorem claimingStage_of_silent {result : Except Failure ClaimReply} (h : Silent process turns)
    (hresult : ∀ reply, result = .ok reply → reply.isClaimed = false) :
    s.claimingStage process portfolio expected capacity (some result) turns := by
  unfold claimingStage
  split
  · rename_i owner c heq
    have hclaimed := hresult _ (Option.some.inj heq)
    exact absurd hclaimed (by simp [ClaimReply.isClaimed])
  · exact h

/-- A read of a ledger writes nothing, and has seen what it gives. -/
theorem read_obeys (hturns : Silent process turns) :
    (s.read portfolio).Obeys Memory.answer [] process (s.seeingStage process portfolio) turns := by
  apply head_obeys hturns hturns
  intro later hsilent
  cases hobject : (stored (turns ++ later)).get? (s.path portfolio) with
  | none => exact ⟨hsilent, rfl⟩
  | some object =>
    -- Between the head and the get the object may be replaced by a newer one.
    apply get_obeys hsilent hsilent hobject
    intro later' newer hsilent' hnewer hsince
    have hle : object.version ≤ newer.version := by
      rcases hsince with rfl | hlt
      · exact Nat.le_refl _
      · exact Nat.le_of_lt hlt
    cases hdecode : decode (s.path portfolio) portfolio newer.data with
    | error failure =>
      simp only [hdecode, Except.map]
      exact hsilent'
    | ok ledger =>
      simp only [hdecode, Except.map]
      exact ⟨hsilent', object.version, newer, rfl, hnewer, hle, hdecode⟩

/-- Asking for the cursor writes nothing. -/
theorem active_obeys (hturns : Silent process turns) :
    (s.answer (.active portfolio)).Obeys Memory.answer [] process (readingStage process) turns :=
  (read_obeys hturns).map (fun _ h => h) fun _ _ h => silent_of_seeingStage h

/-- The put of a claim on what a read has seen commits the claim, or writes nothing. -/
theorem commit_obeys {ledger : Ledger} {version : Option String} {active : Option Cursor}
    {c : Claim}
    (hturns : Silent process turns) (hsaw : s.Saw portfolio ledger (stored turns) version)
    (hactive : ledger.active = .ok active)
    (hplan : plan (active.getD .start) expected capacity = .ok c) :
    (s.commit portfolio ledger version c).Obeys Memory.answer [] process
      (s.claimingStage process portfolio expected capacity) turns := by
  unfold commit
  -- The bytes are named, since they would be computed where writes are compared.
  generalize hdata : (ledger.record c s.clock).bytes = data
  apply put_obeys hturns hturns
  · intro later t token hsilent hholds hprocess hwrite hversion
    obtain ⟨hheld, hfits⟩ := held_of_saw hsaw hholds
    have hcommits : s.Commits portfolio expected capacity (stored (turns ++ later))
        ⟨process, s.path portfolio, data, token⟩ c :=
      ⟨rfl, ⟨ledger, ⟨hheld, ⟨active, hactive, hplan⟩, hfits⟩, hdata.symm⟩, hversion⟩
    exact ⟨rfl, turns ++ later, t, [], _, rfl, hsilent, by simp [Silent], hprocess, hwrite,
      hcommits⟩
  · intro later current hsilent
    exact hsilent

/-- Whatever others do, a claim that takes effect has made exactly one write, which commits it, and
any other claim has written nothing. -/
theorem claim_obeys (hturns : Silent process turns) :
    (s.claim portfolio expected capacity).Obeys Memory.answer [] process
      (s.claimingStage process portfolio expected capacity) turns := by
  refine (read_obeys hturns).bind (fun _ h => h) ?_
  intro result turns' hresult
  -- The read has written nothing, so only a commit can write, and it is for a planned claim.
  have hsilent := silent_of_seeingStage hresult
  cases result with
  | error failure => exact claimingStage_of_silent hsilent (by simp)
  | ok seen =>
    obtain ⟨ledger, version⟩ := seen
    simp only
    cases hactive : ledger.active with
    | error failure => exact claimingStage_of_silent hsilent (by simp)
    | ok active =>
      simp only
      cases hplan : plan (active.getD .start) expected capacity with
      | error outcome =>
        apply claimingStage_of_silent hsilent
        intro reply hreply
        rw [← Except.ok.inj hreply]
        exact isClaimed_of_plan hplan
      | ok c => exact commit_obeys hsilent hresult.2 hactive hplan

end ReferenceMint.Store.LedgerStore
