import ReferenceMint.Proofs.Batch.Running
import ReferenceMint.Proofs.CommitOrder
import ReferenceMint.Proofs.Rendering
import ReferenceMint.Proofs.Sorting
import ReferenceMint.Proofs.Succession
import ReferenceMint.Race

/-!
# Issued references ascend

On a store a portfolio only moves on: it never stands at a lower rank than before, and a claim that
takes effect moves it behind the claimed sequence (`Store.StandsFrom`). So whatever others ask of
the store between the calls of a process, each reference that the process issues has a triple after
those of the references before it (`Settings.MovesOn.process`). As references of one portfolio and
one layout sort as their triples do, the process issues them in ascending order
(`references_sort_as_issued`).
-/

namespace ReferenceMint

open Storage (Memory.answer stored)
open Store (LedgerStore SharedDatabase Tidy cursorOf tripleOf)

/-- The reference of a triple that comes before another is in front of the other's. -/
theorem Layout.compare_of_before {l : Layout} {t u : Triple} {r q : Reference}
    (h : l.write t = .ok r) (h' : l.write u = .ok q) (hportfolio : t.portfolio = u.portfolio)
    (hbefore : t.Before u) : compare r q = .lt := by
  rw [compare_of_write h h' hportfolio]
  rcases hbefore with hlt | ⟨heq, hlt⟩
  · have hposition : compare t.letter.position u.letter.position = .lt :=
      Nat.compare_eq_lt.mpr (Letter.lt_iff.mp hlt)
    rw [hposition]
    rfl
  · have hposition : compare t.letter.position u.letter.position = .eq :=
      Nat.compare_eq_eq.mpr (congrArg (fun a : Letter => a.position.val) heq)
    rw [hposition, UInt32.compare_eq_toNat_compare_toNat,
      Nat.compare_eq_lt.mpr (UInt32.lt_iff_toNat_lt.mp hlt)]
    rfl

/-! ## Stores -/

namespace Store

section

variable {b after : Book} {portfolio owner : PortfolioCode} {expected : Cursor} {capacity : UInt32}
  {c : Claim}

/-- A claim that is recorded is from the cursor on, and the cursor goes behind it. -/
theorem Book.rank_lt_record (hb : b.HasHistory) (hcapacity : capacity.toNat < 2 ^ 32 - 1)
    (hplan : plan (cursorOf (b.rows portfolio)) expected capacity = .ok c) :
    (cursorOf (b.rows portfolio)).rank ≤ c.rank ∧
      c.rank < (cursorOf ((b.record portfolio c).rows portfolio)).rank := by
  obtain ⟨-, hclaim⟩ := plan_eq_ok hplan
  have hhistory := (hb portfolio).claim hcapacity hclaim
  rw [Book.rows_record_self]
  exact ⟨Cursor.rank_le_of_claim hclaim, hhistory.rank_lt c List.mem_cons_self⟩

/-- A step takes no cursor back. -/
theorem Book.Step.rank_le {call : Call} {reply : Reply call} (h : Book.Step call b reply after)
    (hb : b.HasHistory) (hcall : call.IsBounded) (portfolio : PortfolioCode) :
    (cursorOf (b.rows portfolio)).rank ≤ (cursorOf (after.rows portfolio)).rank := by
  rcases h with hanswer | ⟨-, rfl⟩
  · have hafter : after = (b.answer call).2 := congrArg Prod.snd hanswer
    rw [hafter]
    rcases b.answer_cases call with
      hsame | ⟨owner, expected, capacity, c, rfl, hplan, hrecord⟩
    · rw [hsame]
    · rw [hrecord]
      by_cases howner : portfolio = owner
      · subst howner
        obtain ⟨hle, hlt⟩ := Book.rank_lt_record hb hcall hplan
        exact Nat.le_of_lt (Nat.lt_of_le_of_lt hle hlt)
      · rw [Book.rows_record_ne _ _ howner]
  · exact Nat.le_refl _

/-- A step that takes a claim takes it from the cursor on, and moves the cursor behind it. -/
theorem Book.Step.of_claimed
    (h : Book.Step (.claim portfolio expected capacity) b (.ok (.claimed owner c)) after)
    (hb : b.HasHistory) (hcapacity : capacity.toNat < 2 ^ 32 - 1) :
    owner = portfolio ∧ (cursorOf (b.rows portfolio)).rank ≤ c.rank ∧
      c.rank < (cursorOf (after.rows portfolio)).rank := by
  rcases h with hanswer | ⟨hrefused, -⟩
  · cases hplan : plan (cursorOf (b.rows portfolio)) expected capacity with
    | error outcome =>
      rw [Book.answer_claim_of_error hplan] at hanswer
      have hclaimed := isClaimed_of_plan hplan
      rw [← Except.ok.inj (Prod.mk.inj hanswer).1] at hclaimed
      exact absurd hclaimed (by simp [ClaimReply.isClaimed])
    | ok taken =>
      rw [Book.answer_claim_of_ok hplan] at hanswer
      obtain ⟨hreply, rfl⟩ := Prod.mk.inj hanswer
      obtain ⟨rfl, rfl⟩ := ClaimReply.claimed.inj (Except.ok.inj hreply)
      exact ⟨rfl, Book.rank_lt_record hb hcapacity hplan⟩
  · exact absurd (hrefused _ rfl) (by simp [ClaimReply.isClaimed])

end

variable {σ : Type} {answer : (c : Call) → σ → Reply c × σ} {keeps : σ → Book → Prop}
  {portfolio : PortfolioCode} {least : Nat} {s : σ}

/-- The store has a book, in which the portfolio stands at the rank or behind it. -/
def StandsFrom (keeps : σ → Book → Prop) (portfolio : PortfolioCode) (least : Nat) (s : σ) : Prop :=
  ∃ b, keeps s b ∧ b.HasHistory ∧ least ≤ (cursorOf (b.rows portfolio)).rank

/-- No call takes a portfolio back. -/
theorem StandsFrom.step (h : StandsFrom keeps portfolio least s) (hfollows : Follows answer keeps)
    {c : Call} (hc : c.IsBounded) : StandsFrom keeps portfolio least (answer c s).2 := by
  obtain ⟨b, hkeeps, hb, hle⟩ := h
  obtain ⟨after, hafter, hstep⟩ := hfollows c s b hc hb hkeeps
  exact ⟨after, hafter, hstep.hasHistory hb hc, hle.trans (hstep.rank_le hb hc portfolio)⟩

/-- Nor do several calls. -/
theorem StandsFrom.converse (h : StandsFrom keeps portfolio least s)
    (hfollows : Follows answer keeps) {calls : List Call} (hcalls : ∀ c ∈ calls, c.IsBounded) :
    StandsFrom keeps portfolio least (Store.converse answer calls s).2 := by
  induction calls generalizing s with
  | nil => exact h
  | cons c calls ih =>
    exact ih (h.step hfollows (hcalls c List.mem_cons_self))
      fun d hd => hcalls d (List.mem_cons_of_mem c hd)

/-- A claim that takes effect is from where the portfolio stands on, and moves it behind the
claim. -/
theorem StandsFrom.claimed (h : StandsFrom keeps portfolio least s)
    (hfollows : Follows answer keeps) {expected : Cursor} {capacity : UInt32}
    (hcapacity : capacity.toNat < 2 ^ 32 - 1) {owner : PortfolioCode} {c : Claim}
    (hreply : (answer (.claim portfolio expected capacity) s).1 = .ok (.claimed owner c)) :
    owner = portfolio ∧ least ≤ c.rank ∧
      StandsFrom keeps portfolio (c.rank + 1)
        (answer (.claim portfolio expected capacity) s).2 := by
  obtain ⟨b, hkeeps, hb, hle⟩ := h
  obtain ⟨after, hafter, hstep⟩ :=
    hfollows (.claim portfolio expected capacity) s b hcapacity hb hkeeps
  have hhistory := hstep.hasHistory hb hcapacity
  rw [hreply] at hstep
  obtain ⟨rfl, hfrom, hbehind⟩ := hstep.of_claimed hb hcapacity
  exact ⟨rfl, hle.trans hfrom, after, hafter, hhistory, hbehind⟩

/-- How a store answers that others use in between: before each call, which is counted, they make
calls of their own. -/
def amid (others : Nat → List Call) (answer : (c : Call) → σ → Reply c × σ) (c : Call)
    (state : Nat × σ) : Reply c × (Nat × σ) :=
  let outcome := answer c (converse answer (others state.1) state.2).2
  (outcome.1, state.1 + 1, outcome.2)

end Store

/-! ## Programs on stores that others use -/

namespace Settings

open Store (Call Reply)

section

variable {σ : Type} {answer : (c : Call) → σ → Reply c × σ} {s : Settings}
  {portfolio : PortfolioCode} {stands : Nat → σ → Prop} {least : Nat} {state : σ} {code : Int}

/-- However calls are answered, a portfolio only moves on. Where it stands is said by `stands`. -/
structure MovesOn (s : Settings) (portfolio : PortfolioCode)
    (answer : (c : Call) → σ → Reply c × σ) (stands : Nat → σ → Prop) : Prop where
  /-- Who stands behind a rank stands behind lower ones. -/
  weakens : ∀ (lower least : Nat) (state : σ), lower ≤ least → stands least state →
    stands lower state
  /-- No call takes the portfolio back. -/
  stays : ∀ (c : Call) (least : Nat) (state : σ), c.IsBounded → stands least state →
    stands least (answer c state).2
  /-- A claim that takes effect is from where the portfolio stands on, and moves it behind the
  claim. -/
  claims : ∀ (expected : Cursor) (least : Nat) (state : σ) (owner : PortfolioCode) (c : Claim),
    stands least state →
    (answer (.claim portfolio expected s.capacity) state).1 = .ok (.claimed owner c) →
    owner = portfolio ∧ least ≤ c.rank ∧
      stands (c.rank + 1) (answer (.claim portfolio expected s.capacity) state).2

/-- What a program that takes one sequence comes to: the sequence is from where the portfolio stood
on, and the portfolio stands behind it then. -/
def MovedOn {α : Type} (stands : Nat → σ → Prop) (gives : Claim → α → Prop) (least : Nat) :
    Except AllocationError α × σ → Prop
  | (.ok a, after) => ∃ c, gives c a ∧ least ≤ c.rank ∧ stands (c.rank + 1) after
  | (.error _, after) => stands least after

/-- A try moves on, if what follows a lost race does. -/
theorem MovesOn.tryOnce (h : s.MovesOn portfolio answer stands) (number : Nat) (observed : Cursor)
    {lost : Option Cursor → Allocating Allocation} (hstands : stands least state)
    (hlost : ∀ seen state, stands least state →
      MovedOn stands (fun c a => a.triple = tripleOf portfolio c) least
        ((lost seen).value answer state)) :
    MovedOn stands (fun c a => a.triple = tripleOf portfolio c) least
      ((s.tryOnce portfolio number observed lost).value answer state) := by
  have hcapacity := s.toNat_capacity_lt
  have hbounded : (Call.claim portfolio observed s.capacity).IsBounded := by
    show s.capacity.toNat < 2 ^ 32 - 1
    omega
  cases hclaim : observed.claim s.capacity with
  | none =>
    unfold Settings.tryOnce
    rw [hclaim]
    exact hstands
  | some planned =>
    have hstays := h.stays _ least state hbounded hstands
    have hclaims := h.claims observed least state
    rw [value_tryOnce_eq answer hclaim]
    generalize answer (.claim portfolio observed s.capacity) state = outcome at hstays hclaims ⊢
    obtain ⟨failure | ⟨owner, c⟩ | seen | seen, after⟩ := outcome
    · exact hstays
    · obtain ⟨rfl, hfrom, hbehind⟩ := hclaims owner c hstands rfl
      exact ⟨c, rfl, hfrom, hbehind⟩
    · exact hlost seen after hstays
    · exact hstays

/-- So do all tries together. -/
theorem MovesOn.tryClaim (h : s.MovesOn portfolio answer stands) (retries number : Nat)
    (observed : Cursor) (hstands : stands least state) :
    MovedOn stands (fun c a => a.triple = tripleOf portfolio c) least
      ((s.tryClaim portfolio retries number observed).value answer state) := by
  induction retries generalizing number observed state with
  | zero =>
    unfold Settings.tryClaim
    exact h.tryOnce number observed hstands fun _ _ hstays => hstays
  | succ retries ih =>
    unfold Settings.tryClaim
    refine h.tryOnce number observed hstands fun seen state hstays => ?_
    cases seen with
    | some cursor => exact ih _ _ hstays
    | none =>
      have hread := h.stays (.active portfolio) least state trivial hstays
      simp only [Program.value]
      generalize answer (.active portfolio) state = outcome at hread ⊢
      obtain ⟨failure | active, after⟩ := outcome
      · exact hread
      · exact ih _ _ hread

/-- So does an allocation, if it is not for another portfolio. -/
theorem MovesOn.allocate (h : s.MovesOn portfolio answer stands)
    (hcheck : ∀ owner, s.check code = .ok owner → owner = portfolio)
    (hstands : stands least state) :
    MovedOn stands (fun c a => a.triple = tripleOf portfolio c) least
      ((s.allocate code).value answer state) := by
  rw [value_allocate_eq]
  unfold allocateOnce
  cases howner : s.check code with
  | error e => exact hstands
  | ok owner =>
    obtain rfl := hcheck owner howner
    have hread := h.stays (.active owner) least state trivial hstands
    simp only [Program.value]
    generalize answer (.active owner) state = outcome at hread ⊢
    obtain ⟨failure | active, after⟩ := outcome
    · exact hread
    · exact h.tryClaim _ _ _ hread

/-- So does an issue, which writes the sequence that it took. -/
theorem MovesOn.issue (h : s.MovesOn portfolio answer stands)
    (hcheck : ∀ owner, s.check code = .ok owner → owner = portfolio)
    (hstands : stands least state) :
    MovedOn stands (fun c r => s.layout.write (tripleOf portfolio c) = .ok r) least
      ((s.issue code).value answer state) := by
  have hmoved := h.allocate hcheck hstands
  unfold Settings.issue
  rw [Program.value_map]
  generalize (s.allocate code).value answer state = outcome at hmoved ⊢
  obtain ⟨e | allocation, after⟩ := outcome
  · exact hmoved
  · obtain ⟨c, htriple, hfrom, hbehind⟩ := hmoved
    simp only
    rw [htriple]
    cases hwrite : s.layout.write (tripleOf portfolio c) with
    | error e => exact h.weakens _ _ after (Nat.le_succ_of_le hfrom) hbehind
    | ok r => exact ⟨c, hwrite, hfrom, hbehind⟩

/-! ## Processes -/

/-- References that were issued one after the other, the latest of which comes first, ascend, and
the sequences were taken below the rank. -/
structure IssuedBelow (s : Settings) (portfolio : PortfolioCode) (least : Nat)
    (issued : List Reference) : Prop where
  /-- Each is behind the ones before. -/
  ascend : issued.Pairwise fun later earlier => compare earlier later = .lt
  /-- Each is that of a claim below the rank. -/
  below : ∀ r ∈ issued, ∃ c, s.layout.write (tripleOf portfolio c) = .ok r ∧ c.rank < least

/-- One more reference whose sequence was taken from the rank on. -/
theorem IssuedBelow.cons {issued : List Reference} (h : s.IssuedBelow portfolio least issued)
    {c : Claim} {r : Reference} (hwrite : s.layout.write (tripleOf portfolio c) = .ok r)
    (hfrom : least ≤ c.rank) : s.IssuedBelow portfolio (c.rank + 1) (r :: issued) where
  ascend := by
    rw [List.pairwise_cons]
    refine ⟨fun q hq => ?_, h.ascend⟩
    obtain ⟨d, hwrite', hlt⟩ := h.below q hq
    exact Layout.compare_of_before hwrite' hwrite rfl
      (before_of_rank_lt (Nat.lt_of_lt_of_le hlt hfrom))
  below := by
    intro q hq
    rcases List.mem_cons.mp hq with rfl | hq
    · exact ⟨c, hwrite, Nat.lt_succ_self _⟩
    · obtain ⟨d, hwrite', hlt⟩ := h.below q hq
      exact ⟨d, hwrite', by omega⟩

/-- What a process has issued goes on ascending. -/
theorem MovesOn.processFrom (h : s.MovesOn portfolio answer stands)
    (hcheck : ∀ owner, s.check code = .ok owner → owner = portfolio) (count : Nat)
    (outcome : ProcessResult) (hstands : stands least state)
    (hissued : s.IssuedBelow portfolio least outcome.issued) :
    ((s.processFrom code count outcome).value answer state).1.issued.Pairwise
      fun r q => compare r q = .lt := by
  induction count generalizing outcome least state with
  | zero => exact List.pairwise_reverse.mpr hissued.ascend
  | succ count ih =>
    have hmoved := h.issue hcheck hstands
    unfold Settings.processFrom
    rw [Program.value_bind]
    generalize (s.issue code).value answer state = result at hmoved ⊢
    obtain ⟨e | r, after⟩ := result
    · exact ih _ hmoved hissued
    · obtain ⟨c, hwrite, hfrom, hbehind⟩ := hmoved
      exact ih _ hbehind (hissued.cons hwrite hfrom)

/-- What a process issues ascends. -/
theorem MovesOn.process (h : s.MovesOn portfolio answer stands)
    (hcheck : ∀ owner, s.check code = .ok owner → owner = portfolio) (count : Nat)
    (hstands : stands least state) :
    ((s.process code count).value answer state).1.issued.Pairwise
      fun r q => compare r q = .lt :=
  h.processFrom hcheck count ⟨[], []⟩ hstands ⟨List.Pairwise.nil, by simp⟩

end

section

variable {σ : Type} {answer : (c : Call) → σ → Reply c × σ} {keeps : σ → Store.Book → Prop}
  {start : σ}

/-- On a store that follows the book a portfolio only moves on, whatever others ask in between. -/
theorem movesOn_amid (hfollows : Store.Follows answer keeps) (s : Settings)
    (portfolio : PortfolioCode) {others : Nat → List Call}
    (hothers : ∀ n, ∀ c ∈ others n, c.IsBounded) :
    s.MovesOn portfolio (Store.amid others answer) fun least state =>
      Store.StandsFrom keeps portfolio least state.2 where
  weakens lower least state hle := by
    rintro ⟨b, hkeeps, hb, hstands⟩
    exact ⟨b, hkeeps, hb, hle.trans hstands⟩
  stays c least state hc hstands := (hstands.converse hfollows (hothers _)).step hfollows hc
  claims expected least state owner c hstands hreply := by
    have hcapacity := s.toNat_capacity_lt
    exact (hstands.converse hfollows (hothers _)).claimed hfollows (by omega) hreply

/-- On a store that keeps the book, a process issues ascending references. -/
theorem process_ascends (h : Store.Bookkeeping answer keeps start) (s : Settings) (code : Int)
    (count : Nat) {earlier : List Call} (hearlier : ∀ c ∈ earlier, c.IsBounded)
    {others : Nat → List Call} (hothers : ∀ n, ∀ c ∈ others n, c.IsBounded) :
    ((s.process code count).run (Store.amid others answer)
      (0, (Store.converse answer earlier start).2)).result.issued.Pairwise
      fun r q => compare r q = .lt := by
  obtain ⟨b, hkeeps, hb, -⟩ := h.reached hearlier
  rw [Program.result_run]
  -- A code that is refused is for no portfolio.
  have howner : ∃ portfolio, ∀ owner, s.check code = .ok owner → owner = portfolio := by
    cases s.check code with
    | error e => exact ⟨⟨0⟩, fun owner howner => absurd howner (by simp)⟩
    | ok portfolio => exact ⟨portfolio, fun owner howner => (Except.ok.inj howner).symm⟩
  obtain ⟨portfolio, hcheck⟩ := howner
  exact (movesOn_amid h.follows s portfolio hothers).process hcheck count
    ⟨b, hkeeps, hb, Nat.zero_le _⟩

end

end Settings

/-! ## Clients on one storage -/

/-- A client that is done before another one begins has the reference in front, if both issue for
one portfolio, with one layout and in one folder. -/
theorem compare_of_precedes {clients : List Client} {earlier : List Storage.Call}
    {schedule : List Nat}
    (htidy : ∀ client ∈ clients, ∀ portfolio rows,
      client.store.heldBuckets portfolio (stored (turnsBefore clients earlier)) = .ok rows →
      Tidy portfolio rows) {i j : Nat} {client client' : Client} {r q : Reference}
    (hi : clients[i]? = some client) (hj : clients[j]? = some client')
    (hr : (issuingAfter clients earlier schedule).2.result? i = some (.ok r))
    (hq : (issuingAfter clients earlier schedule).2.result? j = some (.ok q))
    (hfolder : client.store.folder = client'.store.folder) (hcode : client.code = client'.code)
    (hlayout : client.settings.layout = client'.settings.layout)
    (hprecedes : Precedes (issuingAfter clients earlier schedule).1 i j) : compare r q = .lt := by
  obtain ⟨k, t, triple, ht, hprocess, hcommit, hrenders⟩ := committed_of_issued hi hr
  obtain ⟨l, u, triple', hu, hprocess', hcommit', hrenders'⟩ := committed_of_issued hj hq
  have hportfolio : triple.portfolio = triple'.portfolio := by
    have hnumber : (triple.portfolio.number.toNat : Int) = triple'.portfolio.number.toNat :=
      hrenders.numbered.trans (hcode.trans hrenders'.numbered.symm)
    exact PortfolioCode.ext_number (Int.ofNat_inj.mp hnumber)
  have hgenuine : Genuine (I := Storage.interface) Memory.answer []
      (issuingAfter clients earlier schedule).1 :=
    genuine_runAfter Client.program clients earlier schedule
  have hcommits : CommitsFrom clients (issuingAfter clients earlier schedule).1
      (turnsBefore clients earlier).length :=
    taking_issue.commitsFrom clients earlier schedule
  have hfirst : (issuingAfter clients earlier schedule).1.take
      (turnsBefore clients earlier).length = turnsBefore clients earlier := List.take_left
  have hstart : (turnsBefore clients earlier).length ≤ k :=
    length_turnsBefore_le ht (hprocess ▸ hi)
  have hbefore : triple.Before triple' := by
    refine hcommit.before hgenuine hcommits ?_ hstart (hprecedes.lt ht hprocess hu hprocess')
      hcommit' hfolder hportfolio
    intro rows hrows
    rw [hfirst] at hrows
    exact htidy client (List.mem_of_getElem? hi) _ rows hrows
  have hwritten' := hrenders'.written
  rw [← hlayout] at hwritten'
  exact Layout.compare_of_before hrenders.written hwritten' hportfolio hbefore

/-- References of one portfolio and one layout compare as text as their letters and sequences do,
and so those that are issued one after the other ascend:

* whatever calls were made before on either store, and whatever others ask between any two calls,
  what a process issues for a code ascends;
* however the calls of clients on object storage interleave, of two clients with the same folder,
  code and layout, the one that is done before the other begins has the reference in front. Here
  storage may hold anything at first, as long as the buckets of its ledgers are tidy. -/
theorem references_sort_as_issued :
    (∀ (l : Layout) (t u : Triple) (r q : Reference), l.write t = .ok r → l.write u = .ok q →
      t.portfolio = u.portfolio → compare r q =
        (compare t.letter.position u.letter.position).then (compare t.sequence u.sequence)) ∧
    (∀ (s : Settings) (code : Int) (count : Nat) (earlier : List Store.Call)
      (others : Nat → List Store.Call), (∀ c ∈ earlier, c.IsBounded) →
      (∀ n, ∀ c ∈ others n, c.IsBounded) →
      (∀ folder clock, ((s.process code count).run
        (Store.amid others (LedgerStore.serve folder clock))
        (0, (Store.converse (LedgerStore.serve folder clock) earlier
          .empty).2)).result.issued.Pairwise fun r q => compare r q = .lt) ∧
      ((s.process code count).run (Store.amid others SharedDatabase.answer)
        (0, (Store.converse SharedDatabase.answer earlier .fresh).2)).result.issued.Pairwise
        fun r q => compare r q = .lt) ∧
    ∀ (clients : List Client) (earlier : List Storage.Call) (schedule : List Nat),
      (∀ client ∈ clients, ∀ portfolio rows,
        client.store.heldBuckets portfolio (stored (turnsBefore clients earlier)) = .ok rows →
        Tidy portfolio rows) →
      ∀ (i j : Nat) (client client' : Client) (r q : Reference), clients[i]? = some client →
        clients[j]? = some client' →
        (issuingAfter clients earlier schedule).2.result? i = some (.ok r) →
        (issuingAfter clients earlier schedule).2.result? j = some (.ok q) →
        client.store.folder = client'.store.folder → client.code = client'.code →
        client.settings.layout = client'.settings.layout →
        Precedes (issuingAfter clients earlier schedule).1 i j → compare r q = .lt := by
  refine ⟨fun l t u r q => Layout.compare_of_write, ?_, ?_⟩
  · intro s code count earlier others hearlier hothers
    refine ⟨fun folder clock => ?_, ?_⟩
    · exact Settings.process_ascends (LedgerStore.bookkeeping folder clock) s code count hearlier
        hothers
    · exact Settings.process_ascends SharedDatabase.bookkeeping s code count hearlier hothers
  · intro clients earlier schedule htidy i j client client' r q
    exact compare_of_precedes htidy

/-- A client with room for two sequences under each letter, which it writes with one digit. -/
def twoEach : Client := clientOfSeven (.ofDigits 1) 2 (by decide)

/-- Somebody else claims the first sequence before the first call, and nothing later. -/
def firstTaken : Nat → List Store.Call
  | 0 => [.claim ⟨7⟩ .start 2]
  | _ => []

/-- The last reference under `A` is in front of the first one under `B`. A process that finds the
first sequence taken issues the last one under `A` and goes on with `B`, and of two clients the
second goes on behind the first. -/
theorem references_sort_as_issued_past_letter :
    compare (⟨"7A9"⟩ : Reference) ⟨"7B1"⟩ = .lt ∧
    (((twoEach.settings.process 7 2).run (Store.amid firstTaken SharedDatabase.answer)
        (0, (Store.converse SharedDatabase.answer [] .fresh).2)).result.issued =
      [⟨"7A2"⟩, ⟨"7B1"⟩] ∧
      ((twoEach.settings.process 7 2).run (Store.amid firstTaken SharedDatabase.answer)
        (0, (Store.converse SharedDatabase.answer [] .fresh).2)).result.issued.Pairwise
        fun r q => compare r q = .lt) ∧
    ∃ r q, (issuingAfter [twoEach, twoEach] [] [0, 0, 0, 1, 1, 1, 1, 1]).2.result? 0 =
        some (.ok r) ∧
      (issuingAfter [twoEach, twoEach] [] [0, 0, 0, 1, 1, 1, 1, 1]).2.result? 1 = some (.ok q) ∧
      compare r q = .lt := by
  refine ⟨?_, ⟨by decide +kernel, ?_⟩, ?_⟩
  · exact references_sort_as_issued.1 (.ofDigits 1) ⟨⟨7⟩, .first, 9⟩ ⟨⟨7⟩, ⟨1⟩, 1⟩ _ _ rfl rfl rfl
  · have hothers : ∀ n, ∀ c ∈ firstTaken n, c.IsBounded := by
      intro n c hc
      cases n with
      | zero => exact (show ∀ c ∈ firstTaken 0, c.IsBounded by decide) c hc
      | succ n => exact absurd hc List.not_mem_nil
    exact (references_sort_as_issued.2.1 twoEach.settings 7 2 [] firstTaken (by simp) hothers).2
  · obtain ⟨hfirst, hlast, hdone, hnone⟩ :
        (issuingAfter [twoEach, twoEach] [] [0, 0, 0, 1, 1, 1, 1, 1]).2.result? 0 =
          some (.ok ⟨"7A1"⟩) ∧
        (issuingAfter [twoEach, twoEach] [] [0, 0, 0, 1, 1, 1, 1, 1]).2.result? 1 =
          some (.ok ⟨"7A2"⟩) ∧
        (∀ t ∈ (issuingAfter [twoEach, twoEach] [] [0, 0, 0, 1, 1, 1, 1, 1]).1.drop 3,
          t.process ≠ 0) ∧
        ∀ t ∈ (issuingAfter [twoEach, twoEach] [] [0, 0, 0, 1, 1, 1, 1, 1]).1.take 3,
          t.process ≠ 1 := by
      decide +kernel
    refine ⟨_, _, hfirst, hlast, ?_⟩
    refine references_sort_as_issued.2.2 [twoEach, twoEach] [] [0, 0, 0, 1, 1, 1, 1, 1] ?_ 0 1 _ _
      _ _ rfl rfl hfirst hlast rfl rfl rfl ⟨3, hdone, hnone⟩
    intro client _ portfolio rows hrows
    obtain rfl := Except.ok.inj hrows
    exact Store.tidy_nil portfolio

end ReferenceMint
