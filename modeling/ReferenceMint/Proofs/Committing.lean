import ReferenceMint.Proofs.Asking
import ReferenceMint.Proofs.Issuing
import ReferenceMint.Proofs.Store.Sightings

/-!
# All that programs write are claims

A program over a bucket store may make any number of calls, and it may be left in the middle of one.
Still each of its writes commits a claim under the capacity of its settings (`program_commits`). For
on object storage every call of the store writes last, if at all (`answer_writesLast`): while it is
under way nothing is written, and when it has ended the write, if there was one, commits the claim
(`answer_ends`). So what the process has written so far only changes from call to call, and the rest
is an induction on the program.
-/

namespace ReferenceMint

open Storage (Memory.answer Write stored)

namespace Program

/-- With a call that writes the program is done. -/
def WritesLast {α : Type} : Program Storage.interface α → Prop
  | .done _ => True
  | .note _ rest => WritesLast rest
  | .call c next => ∀ reply, WritesLast (next reply) ∧
    ∀ process, Write.ofTurn? ⟨process, c, reply⟩ ≠ none → (next reply).result? ≠ none

end Program

namespace Store.LedgerStore

/-- A program that writes last has written nothing while it is under way. -/
theorem silentSince_of_writesLast {α : Type} {process : Nat}
    {begun turns : List (Turn Storage.interface)} {p : Program Storage.interface α}
    (h : p.WritesLast) (hturns : p.result? = none → SilentSince process begun turns) :
    p.Obeys Memory.answer [] process
      (fun result turns => result = none → SilentSince process begun turns) turns := by
  induction p generalizing turns with
  | done a => exact hturns
  | note entry rest ih => exact ih h hturns
  | call c next ih =>
    apply Program.obeys_call fun _ => hturns rfl
    intro later hlater reply _
    apply ih reply (h reply).1
    intro hnext
    -- As the program is not done yet, the call has not written.
    have hnone : Write.ofTurn? ⟨process, c, reply⟩ = none := by
      by_contra hwrite
      exact (h reply).2 process hwrite hnext
    refine ((hturns rfl).trans (silentSince_others hlater)).trans ⟨_, rfl, fun t ht _ => ?_⟩
    obtain rfl : t = ⟨process, c, reply⟩ := by simpa using ht
    exact hnone

/-! ## Calls -/

section

variable {s : LedgerStore}

/-- A read writes nothing, so what comes after it decides. -/
theorem read_bind_writesLast {α : Type} {portfolio : PortfolioCode}
    {f : Except Failure (Ledger × Option String) → Program Storage.interface α}
    (hf : ∀ result, (f result).WritesLast) : ((s.read portfolio).bind f).WritesLast := by
  intro reply
  refine ⟨?_, fun _ hwrite => absurd rfl hwrite⟩
  rcases reply with failure | _ | info
  · exact hf _
  · exact hf _
  · intro data
    refine ⟨?_, fun _ hwrite => absurd rfl hwrite⟩
    cases data <;> exact hf _

/-- Every call of the store writes last, if it writes. -/
theorem answer_writesLast (c : Store.Call) : (s.answer c).WritesLast := by
  cases c with
  | active portfolio => exact read_bind_writesLast fun _ => trivial
  | buckets portfolio => exact read_bind_writesLast fun _ => trivial
  | claim portfolio expected capacity =>
    refine read_bind_writesLast fun result => ?_
    rcases result with failure | ⟨ledger, version⟩
    · trivial
    · simp only
      cases ledger.active with
      | error failure => trivial
      | ok active =>
        simp only
        cases plan (active.getD .start) expected capacity with
        | error outcome => trivial
        | ok c =>
          intro reply
          rcases reply with failure | version | current
          · exact ⟨trivial, fun _ _ => Option.some_ne_none _⟩
          · exact ⟨trivial, fun _ _ => Option.some_ne_none _⟩
          · exact ⟨trivial, fun _ _ => Option.some_ne_none _⟩

variable {process : Nat} {begun : List (Turn Storage.interface)} {settings : Settings}

/-- Whatever others do, a call that the settings allow has written nothing in the end, or it has
committed a claim under their capacity. -/
theorem answer_ends {c : Store.Call} (hc : settings.Allows c) :
    (s.answer c).Obeys Memory.answer [] process (.ending fun _ turns =>
      SilentSince process begun turns ∨
        ∃ portfolio taken earlier,
          s.Won process portfolio settings.capacity taken begun earlier turns)
      begun := by
  cases c with
  | active portfolio =>
    refine read_ends.bind_ending ?_
    exact fun _ _ hends => .inl hends.1.silent
  | buckets portfolio =>
    refine read_ends.bind_ending ?_
    exact fun _ _ hends => .inl hends.1.silent
  | claim portfolio expected capacity =>
    obtain ⟨-, rfl⟩ := hc
    apply claim_ends.mono
    intro result turns hends
    rcases result with _ | failure | reply
    · trivial
    · exact .inl hends.1.silent
    · cases reply with
      | claimed owner taken =>
        obtain ⟨-, earlier, hwon⟩ := hends
        exact .inr ⟨portfolio, taken, earlier, hwon⟩
      | conflict seen =>
        cases seen <;> exact .inl hends.1.silent
      | exhausted seen => exact .inl hends.1.silent

end

/-! ## Programs -/

/-- Each turn in which the process wrote committed a claim under the capacity. -/
def OnlyCommits (s : LedgerStore) (process : Nat) (capacity : UInt32)
    (turns : List (Turn Storage.interface)) : Prop :=
  ∀ k t write, turns[k]? = some t → t.process = process → Write.ofTurn? t = some write →
    ∃ portfolio expected c, s.Commits portfolio expected capacity (stored (turns.take k)) write c

section

variable {s : LedgerStore} {process : Nat} {capacity : UInt32}
  {turns later : List (Turn Storage.interface)}

/-- A process without turns has committed nothing else. -/
theorem onlyCommits_of_others (h : Others process turns) :
    s.OnlyCommits process capacity turns :=
  fun _ t _ ht hprocess => absurd hprocess (h t (List.mem_of_getElem? ht))

/-- While the process writes nothing, this stays so. -/
theorem OnlyCommits.silent (h : s.OnlyCommits process capacity turns)
    (hsilent : SilentSince process turns later) : s.OnlyCommits process capacity later := by
  obtain ⟨since, rfl, hsince⟩ := hsilent
  intro k t write ht hprocess hwrite
  rcases Nat.lt_or_ge k turns.length with hlt | hge
  · rw [List.getElem?_append_left hlt] at ht
    rw [List.take_append_of_le_length (Nat.le_of_lt hlt)]
    exact h k t write ht hprocess hwrite
  · rw [List.getElem?_append_right hge] at ht
    exact absurd hwrite (hsince.not_write ht hprocess)

/-- A claim that takes effect is committed. -/
theorem OnlyCommits.won (h : s.OnlyCommits process capacity turns) {portfolio : PortfolioCode}
    {c : Claim} {earlier : List (Turn Storage.interface)}
    (hwon : s.Won process portfolio capacity c turns earlier later) :
    s.OnlyCommits process capacity later := by
  obtain ⟨u, other, expected, rfl, -, hsilent, hother, hcommits⟩ := hwon
  have hquiet := h.silent hsilent
  intro k t write ht hprocess hwrite
  rcases Nat.lt_trichotomy k earlier.length with hlt | rfl | hgt
  · rw [List.getElem?_append_left hlt] at ht
    rw [List.take_append_of_le_length (Nat.le_of_lt hlt)]
    exact hquiet k t write ht hprocess hwrite
  · obtain rfl : u = t := by simpa using ht
    obtain rfl : other = write := Option.some.inj (hother.symm.trans hwrite)
    rw [List.take_left]
    exact ⟨portfolio, expected, c, hcommits⟩
  · rw [List.getElem?_eq_none (by simp; omega)] at ht
    exact absurd ht (by simp)

/-- Others do not write for the process. -/
theorem onlyCommits_steady {α : Type} : Stage.Steady (I := Storage.interface) (α := α) process
    fun _ turns => s.OnlyCommits process capacity turns :=
  fun _ _ _ hlater h => h.silent (silentSince_others hlater)

variable {settings : Settings}

/-- A call that the settings allow commits a claim, or it writes nothing. -/
theorem answer_commits {c : Store.Call} (hc : settings.Allows c)
    (h : s.OnlyCommits process settings.capacity turns) :
    (s.answer c).Obeys Memory.answer [] process
      (fun _ turns => s.OnlyCommits process settings.capacity turns) turns := by
  have hquiet : (s.answer c).Obeys Memory.answer [] process
      (fun result later => result = none → SilentSince process turns later) turns :=
    silentSince_of_writesLast (answer_writesLast c) fun _ => .refl
  apply (hquiet.and (answer_ends hc)).mono
  rintro result later ⟨hsilent, hends⟩
  cases result with
  | none => exact h.silent (hsilent rfl)
  | some result =>
    rcases hends with hsilent | ⟨portfolio, taken, earlier, hwon⟩
    · exact h.silent hsilent
    · exact h.won hwon

/-- Whatever others do, each write of a program that asks for what the settings allow commits a
claim under their capacity, at any moment. -/
theorem program_commits {α : Type} {p : Program Store.interface α} (hp : p.Asks settings.Allows)
    (h : s.OnlyCommits process settings.capacity turns) :
    (s.program p).Obeys Memory.answer [] process
      (fun _ turns => s.OnlyCommits process settings.capacity turns) turns := by
  induction p generalizing turns with
  | done a => exact h
  | note entry rest ih => exact ih hp h
  | call c next ih =>
    exact (answer_commits hp.1 h).bind (fun _ h => h) fun reply _ h => ih reply (hp.2 reply) h

end

end Store.LedgerStore

end ReferenceMint
