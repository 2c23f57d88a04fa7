import ReferenceMint.Proofs.Store.History
import ReferenceMint.Proofs.Text.Numeral

/-!
# The book that a bucket store keeps

What a bucket store has to do is said by a book: the buckets of each portfolio, with the claims
behind them. A call is answered from the book, and a claim that takes effect is recorded in it
(`Book.answer`). The books that there can be are sound: their buckets are tidy, and under capacities
below the highest number they have the claims as history (`Book.HasHistory`).

A store follows the book (`Follows`) if every call has the reply that the book gives, or is a claim
that the store refuses for a reason of its own and that leaves everything as it is. Then the store's
buckets have issued exactly what it has replied to have been claimed (`Follows.issues`).
-/

namespace ReferenceMint.Store

/-- A call on a bucket store and the reply to it. -/
structure Exchange where
  call : Call
  reply : Reply call

/-- Makes calls one after the other: the exchanges, and the state after them. -/
def converse {σ : Type} (answer : (c : Call) → σ → Reply c × σ) :
    List Call → σ → List Exchange × σ
  | [], s => ([], s)
  | c :: calls, s =>
    (⟨c, (answer c s).1⟩ :: (converse answer calls (answer c s).2).1,
      (converse answer calls (answer c s).2).2)

/-- The claim that an exchange took from a portfolio, if it took one. -/
def Exchange.claimFrom? (portfolio : PortfolioCode) : Exchange → Option Claim
  | ⟨.claim .., .ok (.claimed owner c)⟩ => if owner = portfolio then some c else none
  | _ => none

/-- The claims that exchanges took from a portfolio, with the first one first. -/
def claimsFrom (portfolio : PortfolioCode) (exchanges : List Exchange) : List Claim :=
  exchanges.filterMap (Exchange.claimFrom? portfolio)

/-- What there is to know about all portfolios. -/
structure Book where
  /-- The buckets of each portfolio. -/
  rows : PortfolioCode → List Bucket
  /-- The claims behind them, with the latest first. -/
  claims : PortfolioCode → List Claim

namespace Book

/-- The book before the first claim. -/
def empty : Book := ⟨fun _ => [], fun _ => []⟩

/-- The book with a claim recorded in it. -/
def record (b : Book) (portfolio : PortfolioCode) (c : Claim) : Book where
  rows other := if other = portfolio then recorded portfolio (b.rows portfolio) c else b.rows other
  claims other := if other = portfolio then c :: b.claims portfolio else b.claims other

/-- Answers a call from the book. -/
def answer : (c : Call) → Book → Reply c × Book
  | .active portfolio, b => (.ok (lastCursor (b.rows portfolio)), b)
  | .buckets portfolio, b => (.ok (b.rows portfolio), b)
  | .claim portfolio expected capacity, b =>
    match plan (cursorOf (b.rows portfolio)) expected capacity with
    | .error outcome => (.ok outcome, b)
    | .ok c => (.ok (.claimed portfolio c), b.record portfolio c)

/-- All buckets are tidy. -/
def AllTidy (b : Book) : Prop := ∀ portfolio, Tidy portfolio (b.rows portfolio)

/-- All buckets have the claims as their history. -/
def HasHistory (b : Book) : Prop :=
  ∀ portfolio, History portfolio (b.claims portfolio) (b.rows portfolio)

/-- The buckets of the portfolio that a claim is recorded for. -/
theorem rows_record_self (b : Book) (portfolio : PortfolioCode) (c : Claim) :
    (b.record portfolio c).rows portfolio = recorded portfolio (b.rows portfolio) c := if_pos rfl

/-- The buckets of other portfolios do not change. -/
theorem rows_record_ne (b : Book) {portfolio other : PortfolioCode} (c : Claim)
    (h : other ≠ portfolio) : (b.record portfolio c).rows other = b.rows other := if_neg h

/-- The claims of the portfolio that a claim is recorded for. -/
theorem claims_record_self (b : Book) (portfolio : PortfolioCode) (c : Claim) :
    (b.record portfolio c).claims portfolio = c :: b.claims portfolio := if_pos rfl

/-- The claims of other portfolios do not change. -/
theorem claims_record_ne (b : Book) {portfolio other : PortfolioCode} (c : Claim)
    (h : other ≠ portfolio) : (b.record portfolio c).claims other = b.claims other := if_neg h

/-- A claim that is not planned changes nothing. -/
theorem answer_claim_of_error {b : Book} {portfolio : PortfolioCode} {expected : Cursor}
    {capacity : UInt32} {outcome : ClaimReply}
    (h : plan (cursorOf (b.rows portfolio)) expected capacity = .error outcome) :
    b.answer (.claim portfolio expected capacity) = (.ok outcome, b) := by
  unfold answer
  simp only [h]

/-- A claim that is planned is recorded. -/
theorem answer_claim_of_ok {b : Book} {portfolio : PortfolioCode} {expected : Cursor}
    {capacity : UInt32} {c : Claim}
    (h : plan (cursorOf (b.rows portfolio)) expected capacity = .ok c) :
    b.answer (.claim portfolio expected capacity) =
      (.ok (.claimed portfolio c), b.record portfolio c) := by
  unfold answer
  simp only [h]

/-- A call leaves the book as it is, or it is a claim that is recorded. -/
theorem answer_cases (c : Call) (b : Book) :
    (b.answer c).2 = b ∨ ∃ portfolio expected capacity claim,
      c = .claim portfolio expected capacity ∧
      plan (cursorOf (b.rows portfolio)) expected capacity = .ok claim ∧
      (b.answer c).2 = b.record portfolio claim := by
  cases c with
  | active portfolio => exact .inl rfl
  | buckets portfolio => exact .inl rfl
  | claim portfolio expected capacity =>
    cases hplan : plan (cursorOf (b.rows portfolio)) expected capacity with
    | error outcome =>
      rw [answer_claim_of_error hplan]
      exact .inl rfl
    | ok claim =>
      rw [answer_claim_of_ok hplan]
      exact .inr ⟨portfolio, expected, capacity, claim, rfl, hplan, rfl⟩

/-- Buckets stay tidy. -/
theorem AllTidy.answer {b : Book} (h : b.AllTidy) (c : Call) : (b.answer c).2.AllTidy := by
  rcases b.answer_cases c with hsame | ⟨portfolio, expected, capacity, claim, rfl, hplan, hrecord⟩
  · rw [hsame]
    exact h
  · rw [hrecord]
    intro other
    by_cases hother : other = portfolio
    · subst hother
      rw [rows_record_self]
      exact (h other).recorded (takenAt_of_claim (h other).sorted (plan_eq_ok hplan).2)
    · rw [rows_record_ne _ _ hother]
      exact h other

end Book

/-- A claim has a capacity below the highest number. -/
def Call.IsBounded : Call → Prop
  | .claim _ _ capacity => capacity.toNat < 2 ^ 32 - 1
  | _ => True

instance : (c : Call) → Decidable c.IsBounded
  | .claim _ _ capacity => inferInstanceAs (Decidable (capacity.toNat < 2 ^ 32 - 1))
  | .active _ => inferInstanceAs (Decidable True)
  | .buckets _ => inferInstanceAs (Decidable True)

namespace Book

/-- Under capacities below the highest number, buckets keep their history. -/
theorem HasHistory.answer {b : Book} (h : b.HasHistory) {c : Call} (hc : c.IsBounded) :
    (b.answer c).2.HasHistory := by
  rcases b.answer_cases c with hsame | ⟨portfolio, expected, capacity, claim, rfl, hplan, hrecord⟩
  · rw [hsame]
    exact h
  · rw [hrecord]
    intro other
    by_cases hother : other = portfolio
    · subst hother
      rw [rows_record_self, claims_record_self]
      exact (h other).claim hc (plan_eq_ok hplan).2
    · rw [rows_record_ne _ _ hother, claims_record_ne _ _ hother]
      exact h other

end Book

/-- Buckets with a history are tidy. -/
theorem Book.HasHistory.allTidy {b : Book} (h : b.HasHistory) : b.AllTidy :=
  fun portfolio => (h portfolio).tidy

/-- There are versions for the claims, and for some more. -/
def Book.Fits (b : Book) (spare : Nat) : Prop :=
  ∀ portfolio, (b.claims portfolio).length + spare ≤ Numeral.limit64

/-- Under capacities below the highest number, there are fewer claims than versions. -/
theorem Book.HasHistory.fits {b : Book} (h : b.HasHistory) : b.Fits 1 := by
  intro portfolio
  have hle := (h portfolio).length_le_rank
  have hlt := (cursorOf (b.rows portfolio)).rank_lt
  have hlimit : Numeral.limit64 = 2 ^ 63 - 1 := Numeral.highest_eq 2 63
  omega

/-- So there is a version for each claim. -/
theorem Book.Fits.length_claims_le {b : Book} {spare : Nat} (h : b.Fits spare)
    (portfolio : PortfolioCode) : (b.claims portfolio).length ≤ Numeral.limit64 :=
  Nat.le_trans (Nat.le_add_right _ _) (h portfolio)

/-- A call adds one claim at most. -/
theorem Book.length_claims_answer_le (b : Book) (c : Call) (portfolio : PortfolioCode) :
    ((b.answer c).2.claims portfolio).length ≤ (b.claims portfolio).length + 1 := by
  rcases b.answer_cases c with hsame | ⟨owner, expected, capacity, claim, -, -, hrecord⟩
  · rw [hsame]
    omega
  · rw [hrecord]
    by_cases howner : portfolio = owner
    · subst howner
      have hlength : ((b.record portfolio claim).claims portfolio).length =
          (b.claims portfolio).length + 1 := by rw [claims_record_self, List.length_cons]
      omega
    · rw [claims_record_ne _ _ howner]
      omega

/-- A call takes one version at most. -/
theorem Book.Fits.answer {b : Book} {spare : Nat} (h : b.Fits (spare + 1)) (c : Call) :
    (b.answer c).2.Fits spare := by
  intro portfolio
  have hspare := h portfolio
  have hone := b.length_claims_answer_le c portfolio
  omega

/-! ## Stores that follow the book -/

/-- The reply is that of a claim that did not take effect. -/
def Refused : (c : Call) → Reply c → Prop
  | .claim .., reply => ∀ outcome, reply = .ok outcome → outcome.isClaimed = false
  | _, _ => False

/-- A step of a store that follows the book: the reply and what is recorded are those of the book,
or a claim is refused and nothing is recorded. -/
def Book.Step (c : Call) (b : Book) (reply : Reply c) (after : Book) : Prop :=
  (reply, after) = b.answer c ∨ (Refused c reply ∧ after = b)

/-- A store follows the book, as long as claims have capacities below the highest number. -/
def Follows {σ : Type} (answer : (c : Call) → σ → Reply c × σ) (keeps : σ → Book → Prop) : Prop :=
  ∀ c s b, c.IsBounded → b.HasHistory → keeps s b →
    ∃ after, keeps (answer c s).2 after ∧ Book.Step c b (answer c s).1 after

/-- A step records what its reply says to have been claimed. -/
theorem Book.Step.claims_eq {c : Call} {b after : Book} {reply : Reply c}
    (h : Book.Step c b reply after) (portfolio : PortfolioCode) :
    after.claims portfolio =
      (Exchange.claimFrom? portfolio ⟨c, reply⟩).toList ++ b.claims portfolio := by
  rcases h with hanswer | ⟨hrefused, rfl⟩
  · cases c with
    | active owner =>
      obtain ⟨rfl, rfl⟩ := Prod.mk.inj hanswer
      rfl
    | buckets owner =>
      obtain ⟨rfl, rfl⟩ := Prod.mk.inj hanswer
      rfl
    | claim owner expected capacity =>
      cases hplan : plan (cursorOf (b.rows owner)) expected capacity with
      | error outcome =>
        rw [answer_claim_of_error hplan] at hanswer
        obtain ⟨rfl, rfl⟩ := Prod.mk.inj hanswer
        have hclaimed := isClaimed_of_plan hplan
        cases outcome with
        | claimed => exact absurd hclaimed (by simp [ClaimReply.isClaimed])
        | conflict => rfl
        | exhausted => rfl
      | ok claim =>
        rw [answer_claim_of_ok hplan] at hanswer
        obtain ⟨rfl, rfl⟩ := Prod.mk.inj hanswer
        by_cases howner : owner = portfolio
        · subst howner
          rw [claims_record_self]
          simp [Exchange.claimFrom?]
        · rw [claims_record_ne _ _ (Ne.symm howner)]
          simp [Exchange.claimFrom?, howner]
  · cases c with
    | active owner => exact hrefused.elim
    | buckets owner => exact hrefused.elim
    | claim owner expected capacity =>
      rcases reply with failure | outcome
      · rfl
      · have hclaimed := hrefused outcome rfl
        cases outcome with
        | claimed => exact absurd hclaimed (by simp [ClaimReply.isClaimed])
        | conflict => rfl
        | exhausted => rfl

/-- A step keeps the history of the buckets. -/
theorem Book.Step.hasHistory {c : Call} {b after : Book} {reply : Reply c}
    (h : Book.Step c b reply after) (hb : b.HasHistory) (hc : c.IsBounded) : after.HasHistory := by
  rcases h with hanswer | ⟨-, rfl⟩
  · have hafter : after = (b.answer c).2 := congrArg Prod.snd hanswer
    rw [hafter]
    exact hb.answer hc
  · exact hb

/-- A store that follows the book ends with a book that has recorded what the replies say to have
been claimed. -/
theorem Follows.converse {σ : Type} {answer : (c : Call) → σ → Reply c × σ}
    {keeps : σ → Book → Prop} (h : Follows answer keeps) {calls : List Call}
    (hcalls : ∀ c ∈ calls, c.IsBounded) {s : σ} {b : Book} (hb : b.HasHistory) (hs : keeps s b) :
    ∃ after, keeps (converse answer calls s).2 after ∧ after.HasHistory ∧
      ∀ portfolio, after.claims portfolio =
        (claimsFrom portfolio (converse answer calls s).1).reverse ++ b.claims portfolio := by
  induction calls generalizing s b with
  | nil => exact ⟨b, hs, hb, fun portfolio => rfl⟩
  | cons c calls ih =>
    have hc := hcalls c (by simp)
    obtain ⟨middle, hmiddle, hstep⟩ := h c s b hc hb hs
    obtain ⟨after, hafter, hhistory, hclaims⟩ :=
      ih (fun d hd => hcalls d (by simp [hd])) (hstep.hasHistory hb hc) hmiddle
    refine ⟨after, hafter, hhistory, fun portfolio => ?_⟩
    have hexchanges : (Store.converse answer (c :: calls) s).1 =
        ⟨c, (answer c s).1⟩ :: (Store.converse answer calls (answer c s).2).1 := rfl
    rw [hclaims, hstep.claims_eq, hexchanges]
    unfold claimsFrom
    rw [List.filterMap_cons]
    -- The exchanges come first to last, and the claims of the book the other way round.
    cases Exchange.claimFrom? portfolio ⟨c, (answer c s).1⟩ <;> simp

/-- The buckets of a portfolio have issued exactly what the store has replied to have been claimed
from it. -/
def IssuesWhatWasClaimed {σ : Type} (answer : (c : Call) → σ → Reply c × σ) (calls : List Call)
    (start : σ) : Prop :=
  ∀ portfolio, ∃ rows,
    (answer (.buckets portfolio) (converse answer calls start).2).1 = .ok rows ∧
    (∀ letter sequence, Bucket.issued rows letter sequence = true ↔
      ∃ c ∈ claimsFrom portfolio (converse answer calls start).1,
        c.letter = letter ∧ c.sequence = sequence) ∧
    (∀ b ∈ rows, ∀ sequence,
      (∃ c ∈ claimsFrom portfolio (converse answer calls start).1,
        c.letter = b.letter ∧ c.sequence = sequence) ↔
      1 ≤ sequence.toNat ∧ sequence.toNat < b.index.toNat)

/-- A store that follows the book has issued exactly what it has replied to have been claimed. -/
theorem Follows.issues {σ : Type} {answer : (c : Call) → σ → Reply c × σ} {keeps : σ → Book → Prop}
    (h : Follows answer keeps) {calls : List Call} (hcalls : ∀ c ∈ calls, c.IsBounded) {start : σ}
    (hstart : keeps start .empty) : IssuesWhatWasClaimed answer calls start := by
  intro portfolio
  obtain ⟨b, hkeeps, hhistory, hclaims⟩ := h.converse hcalls (fun _ => History.nil) hstart
  -- The buckets are those of the book at the end, since a question for them is never refused.
  obtain ⟨after, -, hstep⟩ := h (.buckets portfolio) _ b trivial hhistory hkeeps
  have hreply : (answer (.buckets portfolio) (Store.converse answer calls start).2).1 =
      .ok (b.rows portfolio) := by
    rcases hstep with hanswer | ⟨hrefused, -⟩
    · exact congrArg Prod.fst hanswer
    · exact hrefused.elim
  have hmem : ∀ c, c ∈ b.claims portfolio ↔
      c ∈ claimsFrom portfolio (Store.converse answer calls start).1 := by
    intro c
    rw [hclaims]
    simp [Book.empty]
  refine ⟨_, hreply, fun letter sequence => ?_, fun row hrow sequence => ?_⟩
  · rw [(hhistory portfolio).issued_iff]
    simp only [hmem]
  · rw [← (hhistory portfolio).claimed_iff_lt_index hrow]
    simp only [hmem]

/-! ## Stores that reply as the book does -/

/-- A store that replies to each call as the book does, as long as the book is ready for the calls,
replies so to all of them. -/
theorem converse_eq_book {σ : Type} {answer : (c : Call) → σ → Reply c × σ}
    {keeps : σ → Book → Prop} {ready : List Call → Book → Prop}
    (step : ∀ c calls s b, ready (c :: calls) b → keeps s b →
      (answer c s).1 = (b.answer c).1 ∧ keeps (answer c s).2 (b.answer c).2 ∧
      ready calls (b.answer c).2)
    (calls : List Call) {s : σ} {b : Book} (hready : ready calls b) (hs : keeps s b) :
    (converse answer calls s).1 = (converse Book.answer calls b).1 := by
  induction calls generalizing s b with
  | nil => rfl
  | cons c calls ih =>
    obtain ⟨hreply, hkeeps, hready'⟩ := step c calls s b hready hs
    unfold converse
    rw [ih hready' hkeeps, hreply]

end ReferenceMint.Store
