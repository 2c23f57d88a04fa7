import ReferenceMint.Proofs.Issuing
import ReferenceMint.Proofs.Store.Sightings

/-!
# How attempts to take a sequence end

An allocation reads the cursor, and then tries to claim at the cursor it has seen last. Each try
that is lost is lost to a write of somebody else, and to a different one each time: either the
ledger has another cursor than at the end of the try before, or it got another version since. So
with each lost try the version of the ledger is at least one higher (`Attempted.lose`).

`TakeEnds` says how an allocation ends: with a claim, after so many versions were passed as tries
were lost; with all tries lost, after as many versions; with the space exhausted at a cursor that
storage held when the process looked; or since storage holds no cursor. Every allocation and every
issue ends in one of these ways, or its code is refused (`allocate_ends`, `issue_ends`).
-/

namespace ReferenceMint.Store.LedgerStore

open Storage (Memory.answer Objects stored version_stored_le)

/-- How taking a sequence ends. What a claim and the number of tries give is up to `gives`. -/
def TakeEnds {α : Type} (s : LedgerStore) (process : Nat) (settings : Settings)
    (portfolio : PortfolioCode) (gives : Claim → Nat → α → Prop)
    (begun : List (Turn Storage.interface)) :
    Except AllocationError α → List (Turn Storage.interface) → Prop
  -- A claim took effect, after one version for each lost try.
  | .ok a, turns => ∃ first earlier c tries, Watched process begun first ∧
    s.Won process portfolio settings.capacity c first earlier turns ∧ 1 ≤ tries ∧
    s.Passed portfolio ((stored first).version (s.path portfolio) + (tries - 1)) (stored earlier) ∧
    gives c tries a
  -- Every try was lost, and there was a version for each of them.
  | .error (.outOfTries owner tries), turns => owner = portfolio ∧ tries = settings.tries ∧
    ∃ first, Watched process begun first ∧ Watched process first turns ∧
      s.Passed portfolio ((stored first).version (s.path portfolio) + tries.toNat) (stored turns)
  -- At some moment when the process looked there was nothing left to claim.
  | .error (.outOfSpace owner), turns => owner = portfolio ∧ SilentSince process begun turns ∧
    ∃ moment seen, Watched process begun moment ∧ moment <+: turns ∧
      s.cursorIn portfolio (stored moment) = .ok seen ∧ seen.claim settings.capacity = none
  -- Storage holds no cursor.
  | .error e, turns => SilentSince process begun turns ∧
    ∃ failure, s.cursorIn portfolio (stored turns) = .error failure ∧ e = .ofFailure failure

/-- How a request with a code ends: the code is refused at once, or taking a sequence of its
portfolio ends. -/
def RequestEnds {α : Type} (s : LedgerStore) (process : Nat) (settings : Settings) (code : Int)
    (gives : PortfolioCode → Claim → Nat → α → Prop) (begun : List (Turn Storage.interface))
    (result : Except AllocationError α) (turns : List (Turn Storage.interface)) : Prop :=
  (∃ e, settings.check code = .error e ∧ result = .error e ∧ turns = begun) ∨
  ∃ portfolio, settings.check code = .ok portfolio ∧
    s.TakeEnds process settings portfolio (gives portfolio) begun result turns

/-- A process has read for the first time, and has then lost some tries. -/
structure Attempted (s : LedgerStore) (process : Nat) (portfolio : PortfolioCode)
    (begun first : List (Turn Storage.interface)) (lost : Nat)
    (turns : List (Turn Storage.interface)) : Prop where
  /-- The first read. -/
  watched : Watched process begun first
  /-- Nothing was written since. -/
  silent : SilentSince process first turns
  /-- The ledger has got a version for each of the lost tries. -/
  passed : s.Passed portfolio ((stored first).version (s.path portfolio) + lost) (stored turns)

/-- The allocation is that of the claim, taken with so many tries. -/
def allocatesAs (portfolio : PortfolioCode) (c : Claim) (tries : Nat) (a : Allocation) : Prop :=
  a = .ofClaim portfolio c tries

section

variable {s : LedgerStore} {process : Nat} {portfolio : PortfolioCode}
  {begun first turns later : List (Turn Storage.interface)} {lost : Nat}

/-- Where the ledger has another cursor, it has another version. -/
theorem passed_of_cursorIn_ne (hextends : turns <+: later)
    (h : s.cursorIn portfolio (stored later) ≠ s.cursorIn portfolio (stored turns)) :
    s.Passed portfolio ((stored turns).version (s.path portfolio) + 1) (stored later) := by
  have hheld : s.held portfolio (stored later) ≠ s.held portfolio (stored turns) := by
    intro heq
    unfold cursorIn at h
    rw [heq] at h
    exact h rfl
  left
  by_contra hnot
  apply hheld
  unfold held
  rw [Storage.get?_eq_of_version_le hextends (by omega)]

/-- One more lost try. -/
theorem Attempted.lose (h : s.Attempted process portfolio begun first lost turns)
    (hsilent : SilentSince process turns later)
    (hpassed : s.Passed portfolio ((stored turns).version (s.path portfolio) + 1) (stored later)) :
    s.Attempted process portfolio begun first (lost + 1) later :=
  ⟨h.watched, h.silent.trans hsilent, h.passed.add hsilent.isPrefix hpassed⟩

/-- Looking on loses no try. -/
theorem Attempted.watch (h : s.Attempted process portfolio begun first lost turns)
    (hwatched : Watched process turns later) :
    s.Attempted process portfolio begun first lost later :=
  ⟨h.watched, h.silent.trans hwatched.silent, h.passed.mono hwatched.silent.isPrefix⟩

/-- After the first read no try is lost. -/
theorem attempted_first (h : Watched process begun first) :
    s.Attempted process portfolio begun first 0 first :=
  ⟨h, .refl, .inl (Nat.le_refl _)⟩

variable {α : Type} {settings : Settings} {gives : Claim → Nat → α → Prop}

/-- Without a cursor the process fails. -/
theorem takeEnds_of_failure {failure : Failure} (hsilent : SilentSince process begun turns)
    (hcursor : s.cursorIn portfolio (stored turns) = .error failure) :
    s.TakeEnds process settings portfolio gives begun (.error (.ofFailure failure)) turns := by
  cases failure <;> exact ⟨hsilent, _, hcursor, rfl⟩

end

/-! ## Tries -/

section

variable {s : LedgerStore} {process : Nat} {portfolio : PortfolioCode} {settings : Settings}
  {begun first turns : List (Turn Storage.interface)} {lost : Nat} {observed : Cursor}

/-- At an exhausted cursor the allocation ends. -/
theorem exhausted_ends (hwatched : Watched process begun turns)
    (hcursor : s.cursorIn portfolio (stored turns) = .ok observed)
    (hclaim : observed.claim settings.capacity = none) :
    (s.program (settings.exhausted portfolio observed)).Obeys Memory.answer [] process
      (.ending (s.TakeEnds process settings portfolio (allocatesAs portfolio) begun)) turns :=
  ⟨rfl, hwatched.silent, turns, observed, hwatched, List.prefix_refl _, hcursor, hclaim⟩

/-- A try ends the allocation, or it is lost, and what follows ends it. -/
theorem tryOnce_ends {loss : Option Cursor → Allocating Allocation}
    (h : s.Attempted process portfolio begun first lost turns)
    (hlooked : Watched process begun turns)
    (hcursor : s.cursorIn portfolio (stored turns) = .ok observed)
    (hloss : ∀ seen later, s.Attempted process portfolio begun first (lost + 1) later →
      Watched process first later →
      (∀ cursor, seen = some cursor → s.cursorIn portfolio (stored later) = .ok cursor) →
      (s.program (loss seen)).Obeys Memory.answer [] process
        (.ending (s.TakeEnds process settings portfolio (allocatesAs portfolio) begun)) later) :
    (s.program (settings.tryOnce portfolio (lost + 1) observed loss)).Obeys Memory.answer [] process
      (.ending (s.TakeEnds process settings portfolio (allocatesAs portfolio) begun)) turns := by
  unfold Settings.tryOnce
  split_ifs with hnone
  · exact exhausted_ends hlooked hcursor (Option.isNone_iff_eq_none.mp hnone)
  · refine claim_ends.bind_ending ?_
    intro result later hends
    rcases result with failure | reply
    · exact takeEnds_of_failure (hlooked.silent.trans hends.1.silent) hends.2
    · cases reply with
      | claimed owner c =>
        obtain ⟨rfl, earlier, hwon⟩ := hends
        simp only [Program.lower_notes]
        apply Program.obeys_notes
        have hextends : turns <+: earlier := by
          obtain ⟨_, _, _, -, -, hsilent, -⟩ := hwon
          exact hsilent.isPrefix
        exact ⟨first, earlier, c, lost + 1, h.watched, h.silent.won hwon, Nat.le_add_left 1 lost,
          h.passed.mono hextends, rfl⟩
      | conflict seen =>
        simp only [Program.lower_notes]
        apply Program.obeys_notes
        -- The try has seen the cursor change, or the version of the ledger has changed since.
        cases seen with
        | some seen =>
          obtain ⟨hwatched, hseen, hne⟩ := hends
          have hmoved : s.cursorIn portfolio (stored later) ≠
              s.cursorIn portfolio (stored turns) := by
            rw [hseen, hcursor]
            exact fun heq => hne (Except.ok.inj heq)
          have hpassed := passed_of_cursorIn_ne hwatched.silent.isPrefix hmoved
          refine hloss _ later (h.lose hwatched.silent hpassed) (h.silent.watched hwatched) ?_
          rintro cursor heq
          rw [← Option.some.inj heq]
          exact hseen
        | none =>
          obtain ⟨hwatched, hpassed⟩ := hends
          exact hloss _ later (h.lose hwatched.silent hpassed) (h.silent.watched hwatched) (by simp)
      | exhausted seen =>
        obtain ⟨hwatched, hseen, hclaim⟩ := hends
        exact exhausted_ends (hlooked.silent.watched hwatched) hseen hclaim

/-- The tries of an allocation end it. -/
theorem tryClaim_ends {retries : Nat} (htries : lost + 1 + retries = settings.tries.toNat)
    (h : s.Attempted process portfolio begun first lost turns)
    (hlooked : Watched process begun turns)
    (hcursor : s.cursorIn portfolio (stored turns) = .ok observed) :
    (s.program (settings.tryClaim portfolio retries (lost + 1) observed)).Obeys Memory.answer []
      process (.ending (s.TakeEnds process settings portfolio (allocatesAs portfolio) begun))
      turns := by
  induction retries generalizing lost observed turns with
  | zero =>
    unfold Settings.tryClaim
    apply tryOnce_ends h hlooked hcursor
    intro seen later hlost hwatched _
    have hpassed := hlost.passed
    rw [show lost + 1 = settings.tries.toNat from htries] at hpassed
    exact ⟨rfl, rfl, first, hlost.watched, hwatched, hpassed⟩
  | succ retries ih =>
    have htries' : lost + 1 + 1 + retries = settings.tries.toNat := by omega
    unfold Settings.tryClaim
    apply tryOnce_ends h hlooked hcursor
    intro seen later hlost hwatched hseen
    cases seen with
    | some cursor =>
      exact ih htries' hlost (hlost.watched.silent.watched hwatched) (hseen cursor rfl)
    | none =>
      -- Nothing was seen of the winner, so the cursor is read anew.
      refine active_ends.bind_ending ?_
      rintro result last ⟨hwatched', hcursor'⟩
      cases result with
      | error failure =>
        exact takeEnds_of_failure
          (hlost.watched.silent.trans (hwatched.silent.trans hwatched'.silent)) hcursor'
      | ok active =>
        have hsilent := hlost.watched.silent.trans hwatched.silent
        exact ih htries' (hlost.watch hwatched') (hsilent.watched hwatched') hcursor'

end

/-! ## Requests -/

section

variable {s : LedgerStore} {process : Nat} {begun : List (Turn Storage.interface)}

/-- Whatever others do, an allocation ends in one of these ways. -/
theorem allocate_ends (settings : Settings) (code : Int) :
    (s.program (settings.allocate code)).Obeys Memory.answer [] process
      (.ending (s.RequestEnds process settings code allocatesAs begun)) begun := by
  apply allocate_obeys_of_once
  unfold Settings.allocateOnce
  cases hcheck : settings.check code with
  | error e => exact .inl ⟨e, hcheck, rfl, rfl⟩
  | ok portfolio =>
    have hwiden : ∀ (result : Option (Except AllocationError Allocation)) turns,
        Stage.ending (s.TakeEnds process settings portfolio (allocatesAs portfolio) begun) result
          turns →
        Stage.ending (s.RequestEnds process settings code allocatesAs begun) result turns := by
      intro result turns h
      cases result with
      | none => trivial
      | some result => exact .inr ⟨portfolio, hcheck, h⟩
    refine active_ends.bind_ending ?_
    rintro result turns ⟨hwatched, hcursor⟩
    cases result with
    | error failure => exact hwiden _ _ (takeEnds_of_failure hwatched.silent hcursor)
    | ok active =>
      have htries := UInt32.le_iff_toNat_le.mp settings.tries_pos
      have hone : (1 : UInt32).toNat = 1 := rfl
      exact (tryClaim_ends (by omega) (attempted_first hwatched) hwatched hcursor).mono hwiden

/-- The claim gives the reference of its triple. -/
def writesAs (l : Layout) (portfolio : PortfolioCode) (c : Claim) (_tries : Nat) (r : Reference) :
    Prop :=
  l.write (tripleOf portfolio c) = .ok r

/-- Whatever others do, an issue ends in one of these ways. -/
theorem issue_ends (settings : Settings) (code : Int) :
    (s.program (settings.issue code)).Obeys Memory.answer [] process
      (.ending (s.RequestEnds process settings code (writesAs settings.layout) begun)) begun := by
  unfold Settings.issue Program.map
  rw [program_bind]
  refine (allocate_ends settings code).bind_ending ?_
  rintro result turns (⟨e, hcheck, rfl, hturns⟩ | ⟨portfolio, hcheck, hends⟩)
  · exact .inl ⟨e, hcheck, rfl, hturns⟩
  · right
    refine ⟨portfolio, hcheck, ?_⟩
    cases result with
    | error e => cases e <;> exact hends
    | ok allocation =>
      obtain ⟨first, earlier, c, tries, hwatched, hwon, htries, hpassed, rfl⟩ := hends
      have hwon' := hwon
      obtain ⟨_, _, _, -, -, -, -, hcommits⟩ := hwon'
      obtain ⟨r, hr⟩ := hcommits.exists_reference
      have hwrite : settings.layout.write (Allocation.ofClaim portfolio c tries).triple =
          .ok r := hr
      simp only [hwrite]
      exact ⟨first, earlier, c, tries, hwatched, hwon, htries, hpassed, hr⟩

end

end ReferenceMint.Store.LedgerStore
