import ReferenceMint.Proofs.Attempts
import ReferenceMint.Proofs.Storage.Writers
import ReferenceMint.Race

/-!
# What a process has issued

A process issues references one after the other, and goes on after a failure. At each moment the
references it has issued account for its writes (`Accounted`): each of them was committed by a turn
of the process, each write of the process committed one of them, and there are as many of them as
writes. Each error that the process met has one of the causes that an issue may fail for.

This holds whatever others do (`process_ends`).
-/

namespace ReferenceMint.Store.LedgerStore

open Storage (Memory.answer Write stored writesBy writesBy_append)

/-- A turn of the process commits the claim that the reference is written for. -/
def IssuedAt (s : LedgerStore) (process : Nat) (settings : Settings) (portfolio : PortfolioCode)
    (turns : List (Turn Storage.interface)) (k : Nat) (r : Reference) : Prop :=
  ∃ t write expected c, turns[k]? = some t ∧ t.process = process ∧
    Write.ofTurn? t = some write ∧
    s.Commits portfolio expected settings.capacity (stored (turns.take k)) write c ∧
    settings.layout.write (tripleOf portfolio c) = .ok r

/-- What a process has issued since some turns accounts for its writes, and each of its errors has a
cause. -/
structure Accounted (s : LedgerStore) (process : Nat) (settings : Settings)
    (portfolio : PortfolioCode) (before : List (Turn Storage.interface)) (issued : List Reference)
    (errors : List AllocationError) (turns : List (Turn Storage.interface)) : Prop where
  /-- The process began after some turns. -/
  start : before <+: turns
  /-- Each reference was committed in a turn since. -/
  committed : ∀ r ∈ issued, ∃ k, before.length ≤ k ∧ s.IssuedAt process settings portfolio turns k r
  /-- Each turn since in which the process wrote committed one of the references. -/
  written : ∀ k t write, before.length ≤ k → turns[k]? = some t → t.process = process →
    Write.ofTurn? t = some write → ∃ r ∈ issued, s.IssuedAt process settings portfolio turns k r
  /-- There are as many references as writes. -/
  count : (writesBy process (turns.drop before.length)).length = issued.length
  /-- Each error is how an issue has ended. -/
  failed : ∀ e ∈ errors, ∃ begun now, before <+: begun ∧ now <+: turns ∧
    s.TakeEnds process settings portfolio (writesAs settings.layout portfolio) begun (.error e) now

section

variable {s : LedgerStore} {process : Nat} {settings : Settings} {portfolio : PortfolioCode}
  {before turns later : List (Turn Storage.interface)} {issued : List Reference}
  {errors : List AllocationError}

/-- The write of a turn that issued a reference commits the claim that the reference is written
for. -/
theorem IssuedAt.commits {k : Nat} {r : Reference} {t : Turn Storage.interface} {write : Write}
    (h : s.IssuedAt process settings portfolio turns k r) (ht : turns[k]? = some t)
    (hwrite : Write.ofTurn? t = some write) : ∃ expected c,
      s.Commits portfolio expected settings.capacity (stored (turns.take k)) write c ∧
      settings.layout.write (tripleOf portfolio c) = .ok r := by
  obtain ⟨u, other, expected, c, hu, -, hother, hcommits, hr⟩ := h
  obtain rfl : t = u := Option.some.inj (ht.symm.trans hu)
  obtain rfl : write = other := Option.some.inj (hwrite.symm.trans hother)
  exact ⟨expected, c, hcommits, hr⟩

/-- What was issued in a turn stays so. -/
theorem IssuedAt.append {k : Nat} {r : Reference}
    (h : s.IssuedAt process settings portfolio turns k r) :
    s.IssuedAt process settings portfolio (turns ++ later) k r := by
  obtain ⟨t, write, expected, c, ht, hprocess, hwrite, hcommits, hr⟩ := h
  have hk : k < turns.length := (List.getElem?_eq_some_iff.mp ht).1
  refine ⟨t, write, expected, c, ?_, hprocess, hwrite, ?_, hr⟩
  · rw [List.getElem?_append_left hk]
    exact ht
  · rw [List.take_append_of_le_length (Nat.le_of_lt hk)]
    exact hcommits

/-- At the beginning nothing is issued. -/
theorem accounted_start : s.Accounted process settings portfolio before [] [] before := by
  refine ⟨List.prefix_refl _, by simp, ?_, by simp [writesBy, Storage.writes], by simp⟩
  intro k t write hk ht
  rw [List.getElem?_eq_none hk] at ht
  exact absurd ht (by simp)

/-- The order of references and errors does not matter. -/
theorem Accounted.reverse (h : s.Accounted process settings portfolio before issued errors turns) :
    s.Accounted process settings portfolio before issued.reverse errors.reverse turns := by
  refine ⟨h.start, fun r hr => h.committed r (List.mem_reverse.mp hr), ?_, ?_,
    fun e he => h.failed e (List.mem_reverse.mp he)⟩
  · intro k t write hk ht hprocess hwrite
    obtain ⟨r, hr, hissued⟩ := h.written k t write hk ht hprocess hwrite
    exact ⟨r, List.mem_reverse.mpr hr, hissued⟩
  · rw [List.length_reverse]
    exact h.count

/-- While the process writes nothing, what it has issued stays accounted for. -/
theorem Accounted.silent (h : s.Accounted process settings portfolio before issued errors turns)
    (hsilent : SilentSince process turns later) :
    s.Accounted process settings portfolio before issued errors later := by
  obtain ⟨since, rfl, hsince⟩ := hsilent
  refine ⟨h.start.trans (List.prefix_append _ _), ?_, ?_, ?_, ?_⟩
  · intro r hr
    obtain ⟨k, hk, hissued⟩ := h.committed r hr
    exact ⟨k, hk, hissued.append⟩
  · intro k t write hk ht hprocess hwrite
    rcases Nat.lt_or_ge k turns.length with hlt | hge
    · rw [List.getElem?_append_left hlt] at ht
      obtain ⟨r, hr, hissued⟩ := h.written k t write hk ht hprocess hwrite
      exact ⟨r, hr, hissued.append⟩
    · rw [List.getElem?_append_right hge] at ht
      exact absurd hwrite (hsince.not_write ht hprocess)
  · rw [List.drop_append_of_le_length h.start.length_le, writesBy_append,
      Storage.writesBy_eq_nil hsince, List.append_nil]
    exact h.count
  · intro e he
    obtain ⟨begun, now, hbegun, hnow, hends⟩ := h.failed e he
    exact ⟨begun, now, hbegun, hnow.trans (List.prefix_append _ _), hends⟩

/-- A claim that takes effect issues one more reference. -/
theorem Accounted.issue (h : s.Accounted process settings portfolio before issued errors turns)
    {earlier : List (Turn Storage.interface)} {c : Claim} {r : Reference}
    (hwon : s.Won process portfolio settings.capacity c turns earlier later)
    (hr : settings.layout.write (tripleOf portfolio c) = .ok r) :
    s.Accounted process settings portfolio before (r :: issued) errors later := by
  obtain ⟨t, write, expected, rfl, hprocess, hsilent, hwrite, hcommits⟩ := hwon
  have hquiet := h.silent hsilent
  have hlength := hquiet.start.length_le
  have hat : s.IssuedAt process settings portfolio (earlier ++ [t]) earlier.length r :=
    ⟨t, write, expected, c, by simp, hprocess, hwrite, by rwa [List.take_left], hr⟩
  refine ⟨hquiet.start.trans (List.prefix_append _ _), ?_, ?_, ?_, ?_⟩
  · intro other hother
    rcases List.mem_cons.mp hother with rfl | hother
    · exact ⟨earlier.length, hlength, hat⟩
    · obtain ⟨k, hk, hissued⟩ := hquiet.committed other hother
      exact ⟨k, hk, hissued.append⟩
  · intro k u other hk hu hown hother
    rcases Nat.lt_trichotomy k earlier.length with hlt | rfl | hgt
    · rw [List.getElem?_append_left hlt] at hu
      obtain ⟨q, hq, hissued⟩ := hquiet.written k u other hk hu hown hother
      exact ⟨q, List.mem_cons_of_mem r hq, hissued.append⟩
    · exact ⟨r, List.mem_cons_self, hat⟩
    · rw [List.getElem?_eq_none (by simp; omega)] at hu
      exact absurd hu (by simp)
  · rw [List.drop_append_of_le_length hlength, writesBy_append,
      Storage.writesBy_singleton hwrite hprocess, List.length_append, hquiet.count]
    rfl
  · intro e he
    obtain ⟨begun, now, hbegun, hnow, hends⟩ := hquiet.failed e he
    exact ⟨begun, now, hbegun, hnow.trans (List.prefix_append _ _), hends⟩

/-- An issue that fails has written nothing. -/
theorem silent_of_error {α : Type} {gives : Claim → Nat → α → Prop} {e : AllocationError}
    (h : s.TakeEnds process settings portfolio gives turns (.error e) later) :
    SilentSince process turns later := by
  unfold TakeEnds at h
  split at h
  · rename_i heq
    exact absurd heq (by simp)
  · obtain ⟨-, -, first, hfirst, hlast, -⟩ := h
    exact hfirst.silent.trans hlast.silent
  · exact h.2.1
  · exact h.1

/-- An issue that fails adds an error. -/
theorem Accounted.fail (h : s.Accounted process settings portfolio before issued errors turns)
    {e : AllocationError} (hends : s.TakeEnds process settings portfolio
      (writesAs settings.layout portfolio) turns (.error e) later) :
    s.Accounted process settings portfolio before issued (e :: errors) later := by
  have hquiet := h.silent (silent_of_error hends)
  refine ⟨hquiet.start, hquiet.committed, hquiet.written, hquiet.count, ?_⟩
  intro other hother
  rcases List.mem_cons.mp hother with rfl | hother
  · exact ⟨turns, later, h.start, List.prefix_refl _, hends⟩
  · exact hquiet.failed other hother

end

/-- How a process ends: as many issues as it was to make are accounted for, with those that
failed. -/
def ProcessEnds (s : LedgerStore) (process : Nat) (settings : Settings) (portfolio : PortfolioCode)
    (before : List (Turn Storage.interface)) (count : Nat) (outcome : ProcessResult)
    (turns : List (Turn Storage.interface)) : Prop :=
  outcome.issued.length + outcome.errors.length = count ∧
    s.Accounted process settings portfolio before outcome.issued outcome.errors turns

variable {s : LedgerStore} {process : Nat} {settings : Settings} {portfolio : PortfolioCode}
  {before turns : List (Turn Storage.interface)} {code : Int}

/-- Whatever others do, the rest of a process ends so. -/
theorem processFrom_ends (hcheck : settings.check code = .ok portfolio) {total : Nat}
    (count : Nat) (outcome : ProcessResult)
    (htotal : count + outcome.issued.length + outcome.errors.length = total)
    (h : s.Accounted process settings portfolio before outcome.issued outcome.errors turns) :
    (s.program (settings.processFrom code count outcome)).Obeys Memory.answer [] process
      (.ending (s.ProcessEnds process settings portfolio before total)) turns := by
  induction count generalizing outcome turns with
  | zero =>
    refine ⟨?_, h.reverse⟩
    simp only [List.length_reverse]
    omega
  | succ count ih =>
    unfold Settings.processFrom
    rw [program_bind]
    refine (issue_ends settings code).bind_ending ?_
    rintro result later (⟨e, hrefused, -⟩ | ⟨owner, howner, hends⟩)
    · rw [hcheck] at hrefused
      exact absurd hrefused (by simp)
    · obtain rfl : portfolio = owner := Except.ok.inj (hcheck.symm.trans howner)
      cases result with
      | ok r =>
        obtain ⟨first, earlier, c, tries, hfirst, hwon, -, -, hr⟩ := hends
        apply ih
        · simp only [List.length_cons]
          omega
        · exact h.issue (hfirst.silent.won hwon) hr
      | error e =>
        apply ih
        · simp only [List.length_cons]
          omega
        · exact h.fail hends

/-- Whatever others do, a process ends so. -/
theorem process_ends (hcheck : settings.check code = .ok portfolio) (count : Nat) :
    (s.program (settings.process code count)).Obeys Memory.answer [] process
      (.ending (s.ProcessEnds process settings portfolio before count)) before :=
  processFrom_ends hcheck count ⟨[], []⟩ rfl accounted_start

end ReferenceMint.Store.LedgerStore
