import ReferenceMint.Proofs.Reading
import ReferenceMint.Proofs.Store.Restriction
import ReferenceMint.Proofs.Succession

/-!
# Issues in turn and the claims behind them

Issues for one portfolio are made one after the other (`Settings.issueInTurn`). Each of them may
have settings of its own, with a capacity of its own, and in between others use the store for other
portfolios. What the issues return accounts for all that the book takes from the portfolio meanwhile
(`Accounts`): an issue that returns a reference takes one claim, that of the triple as which the
reference is read, and any other issue takes none (`Settings.accounts_issue`). So of a portfolio
that had issued nothing, the references are those of all the claims in its history.
-/

namespace ReferenceMint

open Store

/-- From one book to the other, what was taken from the portfolio are the claims of the references,
which come in the order in which they were issued. -/
structure Accounts (l : Layout) (portfolio : PortfolioCode) (b : Book) (refs : List Reference)
    (after : Book) : Prop where
  /-- Each reference is read as the triple of its claim. The book has the latest claim first. -/
  taken : ∃ claims, after.claims portfolio = claims ++ b.claims portfolio ∧
    List.Forall₂ (fun c r => l.read r.text = .ok (tripleOf portfolio c)) claims refs.reverse
  /-- The book has a history. -/
  history : after.HasHistory

namespace Accounts

variable {l : Layout} {portfolio : PortfolioCode} {b middle after : Book}
  {refs more : List Reference}

/-- Where nothing was taken there is no reference. -/
theorem of_claims_eq (hafter : after.HasHistory)
    (hclaims : after.claims portfolio = b.claims portfolio) : Accounts l portfolio b [] after where
  taken := ⟨[], hclaims, .nil⟩
  history := hafter

/-- A claim that is recorded accounts for the reference that is read as its triple. -/
theorem of_record {c : Claim} {r : Reference} (hafter : (b.record portfolio c).HasHistory)
    (hread : l.read r.text = .ok (tripleOf portfolio c)) :
    Accounts l portfolio b [r] (b.record portfolio c) where
  taken := ⟨[c], Book.claims_record_self b portfolio c, .cons hread .nil⟩
  history := hafter

/-- What is issued first and what is issued then. -/
theorem trans (h : Accounts l portfolio b refs middle)
    (hmore : Accounts l portfolio middle more after) :
    Accounts l portfolio b (refs ++ more) after where
  taken := by
    obtain ⟨claims, hclaims, hread⟩ := h.taken
    obtain ⟨later, hlater, hread'⟩ := hmore.taken
    refine ⟨later ++ claims, by rw [hlater, hclaims, List.append_assoc], ?_⟩
    rw [List.reverse_append]
    exact List.rel_append hread' hread
  history := hmore.history

end Accounts

/-- Claims of other portfolios are not among those of the portfolio. -/
theorem Store.Book.Step.claims_of_ne {c : Call} {b after : Book} {reply : Reply c}
    {portfolio : PortfolioCode} (h : Book.Step c b reply after) (hc : c.portfolio ≠ portfolio) :
    after.claims portfolio = b.claims portfolio := by
  rcases h with hanswer | ⟨-, rfl⟩
  · obtain rfl : after = (b.answer c).2 := congrArg Prod.snd hanswer
    rcases b.answer_cases c with hsame | ⟨owner, expected, capacity, claim, rfl, -, hrecord⟩
    · rw [hsame]
    · rw [hrecord]
      exact Book.claims_record_ne b claim (Ne.symm hc)
  · rfl

/-- Buckets that were never opened have no claim behind them. -/
theorem Store.History.eq_nil {portfolio : PortfolioCode} {claims : List Claim}
    (h : History portfolio claims []) : claims = [] := by
  refine List.eq_nil_iff_forall_not_mem.mpr fun c hc => ?_
  have hissued := h.issued_iff.mpr ⟨c, hc, rfl, rfl⟩
  exact absurd hissued (by simp [Bucket.issued])

namespace Settings

variable {σ : Type} {answer : (c : Call) → σ → Reply c × σ} {keeps : σ → Book → Prop} {start : σ}
  {s : Settings} {portfolio : PortfolioCode} {b : Book}

/-- A code that is refused stops an issue before it asks for anything. -/
theorem issue_of_refused {code : Int} {e : AllocationError} (hcheck : s.check code = .error e)
    (state : σ) : (s.issue code).value answer state = (.error e, state) := by
  unfold issue
  rw [Program.value_map, value_allocate_eq]
  unfold allocateOnce
  rw [hcheck]
  rfl

/-- On the book an issue takes one claim, whose triple its reference is read as, or it takes none
and returns no reference. -/
theorem accounts_issue (s : Settings) (portfolio : PortfolioCode) (hb : b.HasHistory) :
    Accounts s.layout portfolio b
      ((s.issue portfolio.number.toNat).value Book.answer b).1.toOption.toList
      ((s.issue portfolio.number.toNat).value Book.answer b).2 := by
  cases hcheck : s.check portfolio.number.toNat with
  | error e =>
    rw [issue_of_refused hcheck]
    exact .of_claims_eq hb rfl
  | ok owner =>
    obtain rfl : owner = portfolio :=
      PortfolioCode.ext_number (Int.ofNat_inj.mp (check_eq_ok_iff.mp hcheck).1)
    cases hclaim : (cursorOf (b.rows owner)).claim s.capacity with
    | none =>
      rw [issue_of_exhausted hcheck hclaim]
      exact .of_claims_eq hb rfl
    | some c =>
      obtain ⟨r, hwrite⟩ := write_of_claim (hb owner).tidy hclaim
      rw [issue_of_claim hcheck hclaim hwrite]
      exact .of_record (hasHistory_record hb hclaim)
        (Layout.read_of_write (number_ne_zero hcheck) hwrite)

/-- Issues for a portfolio one after the other, each under settings of its own, where others make
some calls before each of them: the references that the issues return, and the state after them. -/
def issueInTurn (answer : (c : Call) → σ → Reply c × σ) (portfolio : PortfolioCode) :
    List (List Call × Settings) → σ → List Reference × σ
  | [], state => ([], state)
  | (others, s) :: turns, state =>
    let outcome := (s.issue portfolio.number.toNat).run answer (converse answer others state).2
    let rest := issueInTurn answer portfolio turns outcome.state
    (outcome.result.toOption.toList ++ rest.1, rest.2)

/-- The first of the issues, and those after it. -/
theorem issueInTurn_cons (others : List Call) (s : Settings) (turns : List (List Call × Settings))
    (state : σ) : issueInTurn answer portfolio ((others, s) :: turns) state =
      let outcome := (s.issue portfolio.number.toNat).value answer (converse answer others state).2
      (outcome.1.toOption.toList ++ (issueInTurn answer portfolio turns outcome.2).1,
        (issueInTurn answer portfolio turns outcome.2).2) := by
  rw [issueInTurn]
  simp only [Program.result_run, Program.state_run]

/-- Calls of others take nothing from the portfolio. -/
theorem accounts_converse (h : Follows answer keeps) (l : Layout) {others : List Call}
    (hothers : ∀ c ∈ others, c.IsBounded ∧ c.portfolio ≠ portfolio) {state : σ}
    (hstate : keeps state b) (hb : b.HasHistory) :
    ∃ after, keeps (converse answer others state).2 after ∧ Accounts l portfolio b [] after := by
  induction others generalizing state b with
  | nil => exact ⟨b, hstate, .of_claims_eq hb rfl⟩
  | cons c others ih =>
    obtain ⟨hbounded, hne⟩ := hothers c List.mem_cons_self
    obtain ⟨middle, hmiddle, hstep⟩ := h c state b hbounded hb hstate
    have hfirst : Accounts l portfolio b [] middle :=
      .of_claims_eq (hstep.hasHistory hb hbounded) (hstep.claims_of_ne hne)
    obtain ⟨after, hafter, hrest⟩ :=
      ih (fun d hd => hothers d (List.mem_cons_of_mem c hd)) hmiddle hfirst.history
    exact ⟨after, hafter, hfirst.trans hrest⟩

/-- The references that issues in turn return account for what is taken from the portfolio. -/
theorem accounts_issueInTurn (h : Bookkeeping answer keeps start) {l : Layout}
    {turns : List (List Call × Settings)}
    (hturns : ∀ turn ∈ turns, turn.2.layout = l ∧
      ∀ c ∈ turn.1, c.IsBounded ∧ c.portfolio ≠ portfolio)
    {state : σ} (hstate : keeps state b) (hb : b.HasHistory) :
    ∃ after, keeps (issueInTurn answer portfolio turns state).2 after ∧
      Accounts l portfolio b (issueInTurn answer portfolio turns state).1 after := by
  induction turns generalizing state b with
  | nil => exact ⟨b, hstate, .of_claims_eq hb rfl⟩
  | cons turn turns ih =>
    obtain ⟨others, s⟩ := turn
    obtain ⟨rfl, hothers⟩ := hturns (others, s) List.mem_cons_self
    obtain ⟨middle, hmiddle, hbefore⟩ := accounts_converse h.follows s.layout hothers hstate hb
    -- The issue gives on the store what it gives on the book.
    obtain ⟨hresult, hkeeps, -⟩ := h.serves.value (s.asks_issue portfolio.number.toNat) hmiddle
      hbefore.history
    have hissue := s.accounts_issue portfolio hbefore.history
    obtain ⟨after, hafter, hrest⟩ :=
      ih (fun turn hturn => hturns turn (List.mem_cons_of_mem _ hturn)) hkeeps hissue.history
    rw [← hresult] at hissue
    rw [issueInTurn_cons]
    exact ⟨after, hafter, (hbefore.trans hissue).trans hrest⟩

end Settings

end ReferenceMint
