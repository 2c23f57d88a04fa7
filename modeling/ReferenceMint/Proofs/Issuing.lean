import ReferenceMint.Issuing
import ReferenceMint.Proofs.Reference
import ReferenceMint.Proofs.Store.Contention

/-!
# What issuing a reference does to storage

An issue may claim several times, as others may win the race, but it ends with the first claim that
takes effect. So whatever others do, an issue that ends with a reference has made exactly one write,
which commits the claim of the triple that the reference is written for, and an issue that ends
otherwise, or is still under way, has written nothing (`issue_obeys`).
-/

namespace ReferenceMint.Store.LedgerStore

open Storage (Memory.answer)

/-- The stage of a process that takes a sequence under a capacity: it has written nothing, unless it
has succeeded; then it has committed a claim that gives the result. -/
def takingStage {α : Type} (s : LedgerStore) (process : Nat) (capacity : UInt32)
    (gives : PortfolioCode → Claim → α → Prop) : Stage Storage.interface (Except AllocationError α)
  | some (.ok a), turns => ∃ portfolio expected c,
    s.Committed process portfolio expected capacity c turns ∧ gives portfolio c a
  | _, turns => Silent process turns

/-- The claim is that of the allocation. -/
def allocates (portfolio : PortfolioCode) (c : Claim) (a : Allocation) : Prop :=
  a.triple = tripleOf portfolio c

/-- The claim is that of the triple that the reference is written for. -/
def writes (l : Layout) (portfolio : PortfolioCode) (c : Claim) (r : Reference) : Prop :=
  l.write (tripleOf portfolio c) = .ok r

section

variable {s : LedgerStore} {process : Nat} {capacity : UInt32}
  {turns : List (Turn Storage.interface)}

/-- Others do not change what a process has taken. -/
theorem takingStage_steady {α : Type} {gives : PortfolioCode → Claim → α → Prop} :
    (s.takingStage process capacity gives).Steady process := by
  intro result turns later hlater h
  unfold takingStage at h ⊢
  split at h
  · obtain ⟨portfolio, expected, c, hcommitted, hgives⟩ := h
    exact ⟨portfolio, expected, c, hcommitted.append hlater, hgives⟩
  · exact h.append hlater

/-- A claim that is committed under the capacity of settings has a reference in their layout. -/
theorem Commits.exists_reference {settings : Settings} {portfolio : PortfolioCode}
    {expected : Cursor} {objects : Storage.Objects} {write : Storage.Write} {c : Claim}
    (h : s.Commits portfolio expected settings.capacity objects write c) :
    ∃ r, settings.layout.write (tripleOf portfolio c) = .ok r := by
  obtain ⟨ledger, htakes, -⟩ := h.taken
  obtain ⟨hpos, hle⟩ := htakes.sequence_bounds
  have hcapacity := UInt32.le_iff_toNat_le.mp settings.capacity_pos
  have hone : (1 : UInt32).toNat = 1 := rfl
  -- The capacity has no more digits than the layout, so the sequence can be written.
  have hfits : (tripleOf portfolio c).sequence.toNat ≤ settings.capacity.toNat := by
    show c.sequence.toNat ≤ _
    omega
  exact settings.write_eq_ok hpos hfits

end

variable {s : LedgerStore} {process : Nat} {turns : List (Turn Storage.interface)}

/-- A program and then another on the store are so on storage. -/
theorem program_bind {α β : Type} (p : Program interface α) (f : α → Program interface β) :
    s.program (p.bind f) = (s.program p).bind fun a => s.program (f a) :=
  Program.lower_bind (I := interface) s.answer p f

/-- Journal entries in front of a program on the store stay in front of it on storage. -/
theorem program_notes {α : Type} (entries : List Journal.Entry) (p : Program interface α) :
    s.program (.notes entries p) = .notes entries (s.program p) :=
  Program.lower_notes (I := interface) s.answer entries p

/-- A try commits its claim and ends, or it has written nothing and what follows is as good. -/
theorem tryOnce_obeys (settings : Settings) (portfolio : PortfolioCode) (number : Nat)
    (observed : Cursor) (lost : Option Cursor → Allocating Allocation)
    (hturns : Silent process turns)
    (hlost : ∀ seen turns, Silent process turns → (s.program (lost seen)).Obeys Memory.answer []
      process (s.takingStage process settings.capacity allocates) turns) :
    (s.program (settings.tryOnce portfolio number observed lost)).Obeys Memory.answer [] process
      (s.takingStage process settings.capacity allocates) turns := by
  unfold Settings.tryOnce
  split_ifs
  · exact hturns
  · refine (claim_obeys hturns).bind (fun _ h => h) ?_
    intro result turns h
    -- Only a claim that took effect has written.
    rcases result with failure | reply
    · exact h
    · cases reply with
      | claimed owner c =>
        obtain ⟨rfl, hcommitted⟩ := h
        simp only [Program.lower_notes]
        apply Program.obeys_notes
        exact ⟨owner, observed, c, hcommitted, rfl⟩
      | conflict seen =>
        simp only [Program.lower_notes]
        apply Program.obeys_notes
        exact hlost seen turns h
      | exhausted cursor => exact h

/-- The tries of an allocation: the first claim that takes effect ends them. -/
theorem tryClaim_obeys (settings : Settings) (portfolio : PortfolioCode) (retries number : Nat)
    (observed : Cursor) (hturns : Silent process turns) :
    (s.program (settings.tryClaim portfolio retries number observed)).Obeys Memory.answer [] process
      (s.takingStage process settings.capacity allocates) turns := by
  induction retries generalizing number observed turns with
  | zero =>
    unfold Settings.tryClaim
    apply tryOnce_obeys settings portfolio number observed _ hturns
    intro seen turns h
    exact h
  | succ retries ih =>
    unfold Settings.tryClaim
    apply tryOnce_obeys settings portfolio number observed _ hturns
    intro seen turns h
    cases seen with
    | some cursor => exact ih _ _ h
    | none =>
      -- Nothing was seen of the winner, so the cursor is read anew, which writes nothing.
      refine (active_obeys h).bind (fun _ h => h) ?_
      intro result turns h
      cases result with
      | error failure => exact h
      | ok active => exact ih _ _ h

/-- The span around an allocation and the record of its failure only log, so an allocation keeps to
the stages that it keeps to without them. -/
theorem allocate_obeys_of_once {settings : Settings} {code : Int}
    {stage : Stage Storage.interface (Except AllocationError Allocation)}
    (h : (s.program (settings.allocateOnce code)).Obeys Memory.answer [] process stage turns) :
    (s.program (settings.allocate code)).Obeys Memory.answer [] process stage turns := by
  have hwithin : (s.program (Program.within (Settings.allocationSpan code)
      (settings.allocateOnce code))).Obeys Memory.answer [] process stage turns := by
    show (s.program (Program.bind (settings.allocateOnce code) _)).Obeys _ _ _ _ _
    rw [program_bind]
    exact h.bind (fun _ h => h) fun _ _ h => h
  unfold Settings.allocate
  rw [program_bind]
  refine hwithin.bind (fun _ h => h) ?_
  intro result turns h
  cases result <;> exact h

/-- An allocation that ends with a triple has committed its claim, and has written nothing else. -/
theorem allocate_obeys (settings : Settings) (code : Int) (hturns : Silent process turns) :
    (s.program (settings.allocate code)).Obeys Memory.answer [] process
      (s.takingStage process settings.capacity allocates) turns := by
  apply allocate_obeys_of_once
  unfold Settings.allocateOnce
  cases settings.check code with
  | error e => exact hturns
  | ok portfolio =>
    refine (active_obeys hturns).bind (fun _ h => h) ?_
    intro result turns h
    cases result with
    | error failure => exact h
    | ok active => exact tryClaim_obeys settings portfolio _ _ _ h

/-- Whatever others do, an issue that ends with a reference has made exactly one write, which
commits the claim of the triple that the reference is written for; any other issue has written
nothing. -/
theorem issue_obeys (settings : Settings) (code : Int) (hturns : Silent process turns) :
    (s.program (settings.issue code)).Obeys Memory.answer [] process
      (s.takingStage process settings.capacity (writes settings.layout)) turns := by
  unfold Settings.issue Program.map
  rw [program_bind]
  refine (allocate_obeys settings code hturns).bind (fun _ h => h) ?_
  intro result turns h
  cases result with
  | error e => exact h
  | ok allocation =>
    obtain ⟨portfolio, expected, c, hcommitted, hallocates⟩ := h
    have hcommitted' := hcommitted
    obtain ⟨_, _, _, _, -, -, -, -, -, hcommits⟩ := hcommitted'
    obtain ⟨r, hr⟩ := hcommits.exists_reference
    show s.takingStage process settings.capacity (writes settings.layout)
      (some ((settings.layout.write allocation.triple).mapError .malformed)) turns
    have hwrite : settings.layout.write allocation.triple = .ok r := by
      rw [hallocates]
      exact hr
    rw [hwrite]
    exact ⟨portfolio, expected, c, hcommitted, hr⟩

end ReferenceMint.Store.LedgerStore
