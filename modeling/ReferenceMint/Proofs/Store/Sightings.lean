import ReferenceMint.Proofs.Storage.Versions
import ReferenceMint.Proofs.Store.Contention

/-!
# What a claim among others goes by

Every reply of a bucket store on object storage goes back to something that storage held while the
call was under way. A cursor, and a failure too, is the one that storage held when the call was
answered (`active_ends`). A claim took effect on what storage held when it was written. A conflict
has seen a cursor other than the expected one, or the ledger got another version after the claim had
begun; and the space was exhausted at the cursor that was seen (`claim_ends`).

The one other way to a conflict is a version beyond sixty-four bits, which no token can carry. So
what versions a ledger has passed is only said up to there (`Passed`).
-/

namespace ReferenceMint.Store.LedgerStore

open Numeral (limit64)
open Storage (Memory.answer Objects Object Write token stored get?_stored version_stored_le)

/-- Since some turns, the process has written nothing. -/
def SilentSince (process : Nat) (begun turns : List (Turn Storage.interface)) : Prop :=
  ∃ since, turns = begun ++ since ∧ Silent process since

/-- Since some turns, the process has only looked at storage, and it has just done so. -/
def Watched (process : Nat) (begun turns : List (Turn Storage.interface)) : Prop :=
  ∃ earlier t, turns = earlier ++ [t] ∧ t.process = process ∧ SilentSince process begun earlier ∧
    Write.ofTurn? t = none ∧ stored turns = stored earlier

/-- Since some turns, the process has written once, which it has just done, and the write commits
the claim. -/
def Won (s : LedgerStore) (process : Nat) (portfolio : PortfolioCode) (capacity : UInt32)
    (c : Claim) (begun earlier turns : List (Turn Storage.interface)) : Prop :=
  ∃ t write expected, turns = earlier ++ [t] ∧ t.process = process ∧
    SilentSince process begun earlier ∧ Write.ofTurn? t = some write ∧
    s.Commits portfolio expected capacity (stored earlier) write c

/-- The ledger of a portfolio has reached a version, or one beyond sixty-four bits. -/
def Passed (s : LedgerStore) (portfolio : PortfolioCode) (version : Nat) (objects : Objects) :
    Prop :=
  version ≤ objects.version (s.path portfolio) ∨ limit64 < objects.version (s.path portfolio)

/-- The cursor that storage holds for a portfolio. -/
def cursorIn (s : LedgerStore) (portfolio : PortfolioCode) (objects : Objects) :
    Except Failure Cursor :=
  (s.held portfolio objects).bind fun ledger => ledger.active.map fun active => active.getD .start

/-! ## Silence -/

section

variable {process : Nat} {begun middle turns : List (Turn Storage.interface)}

/-- Nothing was written since right now. -/
theorem SilentSince.refl : SilentSince process turns turns :=
  ⟨[], (List.append_nil turns).symm, by simp [Silent]⟩

/-- What began is still there. -/
theorem SilentSince.isPrefix (h : SilentSince process begun turns) : begun <+: turns := by
  obtain ⟨since, rfl, -⟩ := h
  exact List.prefix_append _ _

/-- Nothing was written since some turns, and nothing since later ones. -/
theorem SilentSince.trans (h : SilentSince process begun middle)
    (h' : SilentSince process middle turns) : SilentSince process begun turns := by
  obtain ⟨since, rfl, hsince⟩ := h
  obtain ⟨more, rfl, hmore⟩ := h'
  refine ⟨since ++ more, List.append_assoc begun since more, fun t ht hprocess => ?_⟩
  rcases List.mem_append.mp ht with ht | ht
  · exact hsince t ht hprocess
  · exact hmore t ht hprocess

/-- Others do not write for the process. -/
theorem silentSince_others (h : Others process middle) :
    SilentSince process turns (turns ++ middle) :=
  ⟨middle, rfl, fun t ht hprocess => absurd hprocess (h t ht)⟩

/-- A process that has only looked has written nothing. -/
theorem Watched.silent (h : Watched process begun turns) : SilentSince process begun turns := by
  obtain ⟨earlier, t, rfl, -, hsilent, hnone, -⟩ := h
  refine hsilent.trans ⟨[t], rfl, fun u hu _ => ?_⟩
  obtain rfl : u = t := by simpa using hu
  exact hnone

/-- A process that has written nothing and then only looked has only looked. -/
theorem SilentSince.watched (h : SilentSince process begun middle)
    (h' : Watched process middle turns) : Watched process begun turns := by
  obtain ⟨earlier, t, hturns, hprocess, hsilent, hrest⟩ := h'
  exact ⟨earlier, t, hturns, hprocess, h.trans hsilent, hrest⟩

/-- A process that has written nothing and then wins has written once. -/
theorem SilentSince.won {s : LedgerStore} {portfolio : PortfolioCode} {capacity : UInt32}
    {c : Claim}
    {earlier : List (Turn Storage.interface)} (h : SilentSince process begun middle)
    (h' : s.Won process portfolio capacity c middle earlier turns) :
    s.Won process portfolio capacity c begun earlier turns := by
  obtain ⟨t, write, expected, hturns, hprocess, hsilent, hrest⟩ := h'
  exact ⟨t, write, expected, hturns, hprocess, h.trans hsilent, hrest⟩

/-- A call that writes nothing and leaves storage alone is a look. -/
theorem watched_of_call {later : List (Turn Storage.interface)} {t : Turn Storage.interface}
    (h : SilentSince process begun turns) (hlater : Others process later)
    (hprocess : t.process = process) (hnone : Write.ofTurn? t = none)
    (hsame : stored (turns ++ later ++ [t]) = stored (turns ++ later)) :
    Watched process begun (turns ++ later ++ [t]) :=
  ⟨turns ++ later, t, rfl, hprocess, h.trans (silentSince_others hlater), hnone, hsame⟩

end

/-! ## Versions that are passed -/

section

variable {s : LedgerStore} {portfolio : PortfolioCode}

/-- What is passed stays passed. -/
theorem Passed.mono {version : Nat} {earlier turns : List (Turn Storage.interface)}
    (h : s.Passed portfolio version (stored earlier)) (hextends : earlier <+: turns) :
    s.Passed portfolio version (stored turns) := by
  have hle := version_stored_le (s.path portfolio) hextends
  rcases h with h | h
  · exact .inl (Nat.le_trans h hle)
  · exact .inr (Nat.lt_of_lt_of_le h hle)

/-- If a version is passed, and from there on some more, then these are passed together. -/
theorem Passed.add {version more : Nat} {earlier turns : List (Turn Storage.interface)}
    (h : s.Passed portfolio version (stored earlier)) (hextends : earlier <+: turns)
    (hmore : s.Passed portfolio ((stored earlier).version (s.path portfolio) + more)
      (stored turns)) : s.Passed portfolio (version + more) (stored turns) := by
  rcases h with h | h
  · rcases hmore with hmore | hmore
    · exact .inl (by omega)
    · exact .inr hmore
  · have hle := version_stored_le (s.path portfolio) hextends
    exact .inr (Nat.lt_of_lt_of_le h hle)

end

/-! ## Reads -/

/-- How a read ends: with the ledger that storage holds, and the version that it had when the read
began, or a later one. -/
def ReadEnds (s : LedgerStore) (process : Nat) (portfolio : PortfolioCode)
    (begun : List (Turn Storage.interface)) (result : Except Failure (Ledger × Option String))
    (turns : List (Turn Storage.interface)) : Prop :=
  Watched process begun turns ∧ ∃ asked, begun <+: asked ∧ asked <+: turns ∧
    result = (s.held portfolio (stored turns)).map fun ledger =>
      (ledger, ((stored asked).get? (s.path portfolio)).map fun object => token object.version)

variable {s : LedgerStore} {process : Nat} {portfolio : PortfolioCode}
  {begun : List (Turn Storage.interface)}

/-- Whatever others do, a read gives the ledger that storage holds at its end. -/
theorem read_ends : (s.read portfolio).Obeys Memory.answer [] process
    (.ending (s.ReadEnds process portfolio begun)) begun := by
  apply Program.obeys_call trivial
  intro later hlater reply hreply
  have hsame : stored (begun ++ later ++ [⟨process, .head (s.path portfolio), reply⟩]) =
      stored (begun ++ later) := replay_concat _ _
  have hasked : Watched process begun
      (begun ++ later ++ [⟨process, .head (s.path portfolio), reply⟩]) :=
    watched_of_call .refl hlater rfl rfl hsame
  generalize hturns : begun ++ later ++ [⟨process, .head (s.path portfolio), reply⟩] = asked
    at hsame hasked ⊢
  have hanswer : reply = .ok (((stored asked).get? (s.path portfolio)).map
      fun object => object.info (s.path portfolio)) := by
    rw [hsame]
    exact hreply
  rw [hanswer]
  cases hobject : (stored asked).get? (s.path portfolio) with
  | none =>
    refine ⟨hasked, asked, hasked.silent.isPrefix, List.prefix_refl _, ?_⟩
    rw [held_of_none hobject, hobject]
    rfl
  | some object =>
    apply Program.obeys_call trivial
    intro later' hlater' reply' hreply'
    have hsame' : stored (asked ++ later' ++ [⟨process, .get (s.path portfolio), reply'⟩]) =
        stored (asked ++ later') :=
      (replay_concat _ _).trans (Storage.Memory.answer_get_snd _ _)
    -- Others may have replaced the object since its version was asked for.
    obtain ⟨newer, hnewer, -⟩ := get?_stored hobject later'
    have hdata : reply' = .ok newer.data :=
      hreply'.trans (Storage.Memory.answer_get_fst hnewer)
    have hended := watched_of_call (t := ⟨process, .get (s.path portfolio), reply'⟩) hasked.silent
      hlater' rfl rfl hsame'
    rw [← hsame'] at hnewer
    rw [hdata] at hended hnewer ⊢
    refine ⟨hended, asked, hasked.silent.isPrefix, ?_, ?_⟩
    · rw [List.append_assoc]
      exact List.prefix_append _ _
    · rw [held_of_some hnewer, hobject]
      rfl

/-- Whatever others do, asking for the cursor gives the one that storage holds at its end. -/
theorem active_ends : (s.answer (.active portfolio)).Obeys Memory.answer [] process
    (.ending fun result turns => Watched process begun turns ∧
      s.cursorIn portfolio (stored turns) = result.map fun active => active.getD .start) begun := by
  refine read_ends.bind_ending ?_
  rintro result turns ⟨hwatched, asked, -, -, rfl⟩
  refine ⟨hwatched, ?_⟩
  unfold cursorIn
  cases s.held portfolio (stored turns) <;> rfl

/-! ## Claims -/

/-- How a claim ends. -/
def ClaimEnds (s : LedgerStore) (process : Nat) (portfolio : PortfolioCode) (expected : Cursor)
    (capacity : UInt32) (begun : List (Turn Storage.interface)) :
    Except Failure ClaimReply → List (Turn Storage.interface) → Prop
  -- It took effect on what storage held when it was written.
  | .ok (.claimed owner c), turns => owner = portfolio ∧
    ∃ earlier, s.Won process portfolio capacity c begun earlier turns
  -- It has seen another cursor than the expected one.
  | .ok (.conflict (some seen)), turns => Watched process begun turns ∧
    s.cursorIn portfolio (stored turns) = .ok seen ∧ seen ≠ expected
  -- The ledger has another version than at the beginning.
  | .ok (.conflict none), turns => Watched process begun turns ∧
    s.Passed portfolio ((stored begun).version (s.path portfolio) + 1) (stored turns)
  -- At the cursor there is nothing left to claim.
  | .ok (.exhausted seen), turns => Watched process begun turns ∧
    s.cursorIn portfolio (stored turns) = .ok seen ∧ seen.claim capacity = none
  -- Storage holds no cursor.
  | .error failure, turns => Watched process begun turns ∧
    s.cursorIn portfolio (stored turns) = .error failure

variable {expected : Cursor} {capacity : UInt32}

/-- A demand that does not hold was made on an older version. -/
theorem passed_of_not_holds {asked turns : List (Turn Storage.interface)} (hasked : asked <+: turns)
    (h : ¬ (demand (((stored asked).get? (s.path portfolio)).map fun object =>
      token object.version)).holds ((stored turns).get? (s.path portfolio)) = true) :
    s.Passed portfolio ((stored asked).version (s.path portfolio) + 1) (stored turns) := by
  rcases Nat.lt_or_ge ((stored asked).version (s.path portfolio))
    ((stored turns).version (s.path portfolio)) with hlt | hge
  · exact .inl hlt
  · -- The object is the one that was asked for, so a token cannot carry its version.
    rw [← Storage.get?_eq_of_version_le hasked hge, holds_demand_iff] at h
    push Not at h
    obtain ⟨object, hobject, hlimit⟩ := h
    rw [← Objects.version_of_some hobject] at hlimit
    exact .inr hlimit

/-- A demand that holds was made on an object that has not changed since, and whose version a token
can carry. -/
theorem unchanged_of_holds {path : String} {asked seen turns : List (Turn Storage.interface)}
    (hseen : asked <+: seen) (hturns : seen <+: turns)
    (h : (demand (((stored asked).get? path).map fun object => token object.version)).holds
      ((stored turns).get? path) = true) :
    (stored turns).get? path = (stored seen).get? path ∧
      ∀ object, (stored turns).get? path = some object → object.version ≤ limit64 := by
  have hversion : (stored turns).version path = (stored asked).version path := by
    cases hobject : (stored asked).get? path with
    | none =>
      rw [hobject] at h
      rw [Objects.version_of_none hobject, Objects.version_of_none (Storage.holds_absent_iff.mp h)]
    | some object =>
      rw [hobject] at h
      obtain ⟨newer, hnewer, hsame, -⟩ := Storage.holds_version_iff.mp h
      rw [Objects.version_of_some hobject, Objects.version_of_some hnewer, hsame]
  have hle := version_stored_le path hseen
  -- The version has come back to where it was, so it has never moved.
  refine ⟨Storage.get?_eq_of_version_le hturns (by omega), ?_⟩
  rw [← Storage.get?_eq_of_version_le (hseen.trans hturns) (by omega)] at h
  exact (holds_demand_iff _).mp h

/-- The put of a planned claim commits it, or the ledger has got another version. -/
theorem commit_ends {asked turns : List (Turn Storage.interface)} {ledger : Ledger}
    {active : Option Cursor} {c : Claim} (hbegun : begun <+: asked) (hasked : asked <+: turns)
    (hwatched : Watched process begun turns) (hheld : s.held portfolio (stored turns) = .ok ledger)
    (hactive : ledger.active = .ok active)
    (hplan : plan (active.getD .start) expected capacity = .ok c) :
    (s.commit portfolio ledger (((stored asked).get? (s.path portfolio)).map
        fun object => token object.version) c).Obeys Memory.answer [] process
      (.ending (s.ClaimEnds process portfolio expected capacity begun)) turns := by
  unfold commit
  -- The bytes are named, since they would be computed where writes are compared.
  generalize hdata : (ledger.record c s.clock).bytes = data
  apply Program.obeys_call trivial
  intro later hlater reply hreply
  have hsilent : SilentSince process begun (turns ++ later) :=
    hwatched.silent.trans (silentSince_others hlater)
  have hextends : turns <+: turns ++ later := List.prefix_append _ _
  by_cases hholds : (demand (((stored asked).get? (s.path portfolio)).map
      fun object => token object.version)).holds
        ((stored (turns ++ later)).get? (s.path portfolio)) = true
  · obtain ⟨hsame, hfits⟩ := unchanged_of_holds hasked hextends hholds
    have hheld' : s.held portfolio (stored (turns ++ later)) = .ok ledger := by
      rw [← hheld]
      unfold held
      rw [hsame]
    have hanswer : reply = .ok (.written (token (Storage.rewritten
        ((stored (turns ++ later)).get? (s.path portfolio)) data).version)) := by
      rw [hreply, Storage.Memory.answer_put_of_holds data hholds]
    subst hanswer
    exact ⟨rfl, turns ++ later, _, _, expected, rfl, rfl, hsilent, rfl,
      ⟨rfl, ⟨ledger, ⟨hheld', ⟨active, hactive, hplan⟩, hfits⟩, hdata.symm⟩, rfl⟩⟩
  · have hanswer := Storage.Memory.answer_put_of_not_holds data hholds
    have hpassed := passed_of_not_holds (hasked.trans hextends) hholds
    have hstored : ∀ u : Turn Storage.interface, u.call = .put (s.path portfolio) data (demand
        (((stored asked).get? (s.path portfolio)).map fun object => token object.version)) →
        stored (turns ++ later ++ [u]) = stored (turns ++ later) := by
      intro u hu
      rw [stored, replay_concat, hu, hanswer]
    rw [hanswer] at hreply
    subst hreply
    refine ⟨⟨turns ++ later, _, rfl, rfl, hsilent, rfl, hstored _ rfl⟩, ?_⟩
    rw [hstored _ rfl]
    have hle := version_stored_le (s.path portfolio) hbegun
    rcases hpassed with hpassed | hpassed
    · exact .inl (by omega)
    · exact .inr hpassed

/-- Whatever others do, a claim ends in one of these ways. -/
theorem claim_ends : (s.claim portfolio expected capacity).Obeys Memory.answer [] process
    (.ending (s.ClaimEnds process portfolio expected capacity begun)) begun := by
  refine read_ends.bind_ending ?_
  rintro result turns ⟨hwatched, asked, hbegun, hasked, rfl⟩
  cases hheld : s.held portfolio (stored turns) with
  | error failure =>
    refine ⟨hwatched, ?_⟩
    unfold cursorIn
    rw [hheld]
    rfl
  | ok ledger =>
    have hcursor : s.cursorIn portfolio (stored turns) =
        ledger.active.map fun active => active.getD .start := by
      unfold cursorIn
      rw [hheld]
      rfl
    simp only [Except.map]
    cases hactive : ledger.active with
    | error failure =>
      rw [hactive] at hcursor
      exact ⟨hwatched, hcursor⟩
    | ok active =>
      rw [hactive] at hcursor
      simp only
      cases hplan : plan (active.getD .start) expected capacity with
      | ok c => exact commit_ends hbegun hasked hwatched hheld hactive hplan
      | error outcome =>
        unfold plan at hplan
        split_ifs at hplan with hexpected
        · cases hclaim : (active.getD .start).claim capacity with
          | some c => simp [hclaim] at hplan
          | none =>
            rw [hclaim] at hplan
            obtain rfl := Except.error.inj hplan
            exact ⟨hwatched, hcursor, hclaim⟩
        · obtain rfl := Except.error.inj hplan
          exact ⟨hwatched, hcursor, hexpected⟩

end ReferenceMint.Store.LedgerStore
