import Mathlib.Tactic.Common
import ReferenceMint.Backfill
import ReferenceMint.Proofs.Interleaving
import ReferenceMint.Proofs.Registry

/-!
# What programs ask for

A program asks for some calls only (`Program.Asks`) if each call that it can ever make is among
them, whatever replies it gets. Two environments that answer these calls alike, from states that
belong together, give such a program the same result (`Program.Asks.value`), and in a crowd every
turn of the program makes one of these calls (`Program.Asks.obeys`). What a second program asks for
may depend on what the first can end with (`Program.Ends`).

Under settings, all that allocations, issues and batches ask for is that cursors and buckets are
read and that claims are made for portfolios of the registry, under the capacity of the settings
(`Settings.Allows`).
-/

namespace ReferenceMint

namespace Program

variable {I : Interface} {α β σ τ : Type}

/-- Whatever replies it gets, the program only makes calls with the property. -/
def Asks (P : I.Call → Prop) : Program I α → Prop
  | .done _ => True
  | .note _ rest => Asks P rest
  | .call c next => P c ∧ ∀ reply, Asks P (next reply)

variable {P : I.Call → Prop}

/-- A program and then another ask for what each of them asks for. -/
theorem Asks.bind {p : Program I α} {f : α → Program I β} (h : p.Asks P)
    (hnext : ∀ a, (f a).Asks P) : (p.bind f).Asks P := by
  induction p with
  | done a => exact hnext a
  | note entry rest ih => exact ih h
  | call c next ih => exact ⟨h.1, fun reply => ih reply (h.2 reply)⟩

/-- Whatever replies it gets, the program ends with a result that has the property. -/
def Ends (Q : α → Prop) : Program I α → Prop
  | .done a => Q a
  | .note _ rest => Ends Q rest
  | .call _ next => ∀ reply, Ends Q (next reply)

/-- A program and then another, where the second only has to keep to the calls for the results that
the first can have. -/
theorem Asks.bind_ends {Q : α → Prop} {p : Program I α} {f : α → Program I β} (h : p.Asks P)
    (hends : p.Ends Q) (hnext : ∀ a, Q a → (f a).Asks P) : (p.bind f).Asks P := by
  induction p with
  | done a => exact hnext a hends
  | note entry rest ih => exact ih h hends
  | call c next ih => exact ⟨h.1, fun reply => ih reply (h.2 reply) (hends reply)⟩

/-- A change of the result asks for nothing. -/
theorem Asks.map {p : Program I α} (h : p.Asks P) (f : α → β) : (p.map f).Asks P :=
  h.bind fun _ => trivial

/-- Journal entries ask for nothing. -/
theorem Asks.notes {p : Program I α} (h : p.Asks P) (entries : List Journal.Entry) :
    (Program.notes entries p).Asks P := by
  induction entries with
  | nil => exact h
  | cons entry entries ih => exact ih

/-- A span asks for nothing. -/
theorem Asks.within {p : Program I α} (h : p.Asks P) (span : Journal.Span) :
    (Program.within span p).Asks P :=
  Asks.bind h fun _ => trivial

/-- Environments that answer the calls alike give the program the same result, and leave states that
belong together. -/
theorem Asks.value {answer : (c : I.Call) → σ → I.Reply c × σ}
    {other : (c : I.Call) → τ → I.Reply c × τ} {R : σ → τ → Prop} {p : Program I α}
    (h : p.Asks P) (step : ∀ c s t, P c → R s t →
      (answer c s).1 = (other c t).1 ∧ R (answer c s).2 (other c t).2)
    {s : σ} {t : τ} (hst : R s t) :
    (p.value answer s).1 = (p.value other t).1 ∧
      R (p.value answer s).2 (p.value other t).2 := by
  induction p generalizing s t with
  | done a => exact ⟨rfl, hst⟩
  | note entry rest ih => exact ih h hst
  | call c next ih =>
    obtain ⟨hreply, hafter⟩ := step c s t h.1 hst
    unfold Program.value
    rw [hreply]
    exact ih _ (h.2 _) hafter

/-- Since it began, the program has only made such calls. -/
theorem Asks.obeys {answer : (c : I.Call) → σ → I.Reply c × σ} {start : σ} {process : Nat}
    {p : Program I α} (h : p.Asks P) {begun turns : List (Turn I)}
    (hturns : ∃ since, turns = begun ++ since ∧ ∀ t ∈ since, t.process = process → P t.call) :
    p.Obeys answer start process (fun _ turns => ∃ since, turns = begun ++ since ∧
      ∀ t ∈ since, t.process = process → P t.call) turns := by
  induction p generalizing turns with
  | done a => exact hturns
  | note entry rest ih => exact ih h hturns
  | call c next ih =>
    apply obeys_call hturns
    intro later hlater reply _
    apply ih reply (h.2 reply)
    obtain ⟨since, rfl, hsince⟩ := hturns
    refine ⟨since ++ later ++ [⟨process, c, reply⟩], by simp, fun t ht hprocess => ?_⟩
    rcases List.mem_append.mp ht with ht | ht
    · rcases List.mem_append.mp ht with ht | ht
      · exact hsince t ht hprocess
      · exact absurd hprocess (hlater t ht)
    · obtain rfl : t = ⟨process, c, reply⟩ := by simpa using ht
      exact h.1

end Program

/-! ## Codes -/

/-- A code is accepted as that of a portfolio if it is the portfolio's number, and the portfolio is
in the range. -/
theorem Settings.check_eq_ok_iff {s : Settings} {code : Int} {portfolio : PortfolioCode} :
    s.check code = .ok portfolio ↔
      (portfolio.number.toNat : Int) = code ∧ s.registry.contains portfolio = true := by
  rw [← Registry.check_eq_ok_iff]
  unfold Settings.check
  cases hcheck : s.registry.check code with
  | error failure => simp [Except.mapError]
  | ok other => simp [Except.mapError]

/-- The portfolio of an accepted code is accepted by its number. -/
theorem Settings.check_number {s : Settings} {code : Int} {portfolio : PortfolioCode}
    (h : s.check code = .ok portfolio) : s.check portfolio.number.toNat = .ok portfolio := by
  rw [check_eq_ok_iff] at h ⊢
  exact ⟨rfl, h.2⟩

/-- A code is refused with a failure. -/
theorem Settings.exists_failure_of_check {s : Settings} {code : Int} {e : AllocationError}
    (h : s.check code = .error e) : ∃ failure, e = .ofFailure failure := by
  unfold check at h
  cases hcheck : s.registry.check code with
  | error failure =>
    rw [hcheck] at h
    exact ⟨failure, (Except.error.inj h).symm⟩
  | ok portfolio =>
    rw [hcheck] at h
    exact absurd h (by simp [Except.mapError])

/-! ## Allocations, issues and batches -/

/-- A call that settings allow: a claim is for a portfolio in the range, under the capacity. -/
def Settings.Allows (s : Settings) : Store.Call → Prop
  | .claim portfolio _ capacity => s.registry.contains portfolio = true ∧ capacity = s.capacity
  | _ => True

namespace Settings

variable {s : Settings} {portfolio : PortfolioCode}

/-- A try claims under the capacity. -/
theorem asks_tryOnce (hportfolio : s.registry.contains portfolio = true) (number : Nat)
    (observed : Cursor) {lost : Option Cursor → Allocating Allocation}
    (hlost : ∀ seen, (lost seen).Asks s.Allows) :
    (s.tryOnce portfolio number observed lost).Asks s.Allows := by
  unfold tryOnce
  split_ifs
  · trivial
  · refine ⟨⟨hportfolio, rfl⟩, fun reply => ?_⟩
    rcases reply with failure | ⟨owner, c⟩ | seen | seen
    · trivial
    · exact Program.Asks.notes (p := .done _) trivial _
    · exact (hlost seen).notes _
    · trivial

/-- So do all tries, and besides they only read the cursor. -/
theorem asks_tryClaim (hportfolio : s.registry.contains portfolio = true) (retries number : Nat)
    (observed : Cursor) : (s.tryClaim portfolio retries number observed).Asks s.Allows := by
  induction retries generalizing number observed with
  | zero =>
    unfold tryClaim
    exact asks_tryOnce hportfolio number observed fun _ => trivial
  | succ retries ih =>
    unfold tryClaim
    apply asks_tryOnce hportfolio number observed
    intro seen
    cases seen with
    | some cursor => exact ih _ _
    | none =>
      refine ⟨trivial, fun reply => ?_⟩
      cases reply with
      | error failure => trivial
      | ok active => exact ih _ _

/-- An allocation asks for what its settings allow. -/
theorem asks_allocate (s : Settings) (code : Int) : (s.allocate code).Asks s.Allows := by
  have honce : (s.allocateOnce code).Asks s.Allows := by
    unfold allocateOnce
    cases hcheck : s.check code with
    | error e => trivial
    | ok portfolio =>
      refine ⟨trivial, fun reply => ?_⟩
      cases reply with
      | error failure => trivial
      | ok active => exact asks_tryClaim (check_eq_ok_iff.mp hcheck).2 _ _ _
  refine (honce.within _).bind fun result => ?_
  cases result <;> trivial

/-- An issue asks for what its settings allow. -/
theorem asks_issue (s : Settings) (code : Int) : (s.issue code).Asks s.Allows :=
  (s.asks_allocate code).map _

/-- So does a series of issues. -/
theorem asks_issueMany (s : Settings) (code : Int) (count : Nat) :
    (s.issueMany code count).Asks s.Allows := by
  unfold issueMany
  generalize ([] : List Reference) = issued
  induction count generalizing issued with
  | zero => trivial
  | succ count ih =>
    refine (s.asks_issue code).bind fun result => ?_
    cases result with
    | error e => trivial
    | ok reference => exact ih _

/-- A report only reads the buckets. -/
theorem asks_report (s : Settings) (code : Int) : (s.report code).Asks s.Allows := by
  unfold report
  cases s.check code with
  | error e => trivial
  | ok portfolio =>
    refine ⟨trivial, fun reply => ?_⟩
    cases reply <;> trivial

/-- Working off a record asks for what the settings allow. -/
theorem asks_workOff (s : Settings) (portfolio : PortfolioCode) (record : LegacyRecord)
    (seen : List Reference) : (s.workOff portfolio record seen).Asks s.Allows := by
  have hcheck : ∀ existing, (s.checkReference portfolio existing seen).Asks s.Allows := by
    intro existing
    unfold checkReference
    split
    · trivial
    · split_ifs
      · trivial
      · split
        · trivial
        · refine ⟨trivial, fun reply => ?_⟩
          cases reply <;> trivial
  unfold workOff
  split
  · exact (s.asks_issue _).map _
  · exact (s.asks_issue _).map _
  · exact hcheck _

/-- The records of a batch ask for what the settings allow. -/
theorem asks_workOffFrom (s : Settings) (portfolio : PortfolioCode) (records : List LegacyRecord)
    (entries : List BatchEntry) (seen : List Reference) :
    (s.workOffFrom portfolio records entries seen).Asks s.Allows := by
  induction records generalizing entries seen with
  | nil => trivial
  | cons record rest ih =>
    refine (s.asks_workOff portfolio record seen).bind fun result => ?_
    rcases result with e | ⟨outcome, seen⟩
    · simp only
      split_ifs
      · trivial
      · exact ih _ _
    · exact ih _ _

/-- A batch asks for what the settings allow. -/
theorem asks_backfill (s : Settings) (code : Int) (records : List LegacyRecord) :
    (s.backfill code records).Asks s.Allows := by
  unfold backfill
  split
  · trivial
  · exact ((s.asks_workOffFrom _ records [] []).within _).bind fun _ => trivial

end Settings

end ReferenceMint
