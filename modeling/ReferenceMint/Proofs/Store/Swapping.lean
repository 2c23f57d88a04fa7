import ReferenceMint.Proofs.Store.Serving

/-!
# A claim compares and swaps

A claim is compared with the cursor of its portfolio first. If the caller expected another one, or
if there is nothing left to claim, the reply says which cursor there is, and no bucket changes.
Otherwise the claim at the cursor takes effect, and of all buckets exactly those that it writes are
other ones (`overwritten`): the claimed letter has its new index, a letter that comes into use has a
new bucket, and the cursor that is read next is the one that the claim leads to. Both stores have
this contract in every state that they reach, under any capacity of at least one
(`claims_compare_and_swap`).
-/

namespace ReferenceMint

/-- The letter that a claim brings into use is that of the cursor after it, if this is another one
than the claimed letter. -/
theorem Claim.opened_eq_after {c : Claim} (h : ∀ next, c.opened = some next → c.letter < next) :
    c.opened = if c.after.letter = c.letter then none else some c.after.letter := by
  unfold after
  cases hnext : c.opened with
  | none => simp
  | some next =>
    have hne : next ≠ c.letter := (Letter.ne_of_lt (h next hnext)).symm
    simp [hne]

namespace Store

open Database (column)

/-! ## What a claim writes -/

/-- The buckets with what a claim writes in place of what they had under its letters. -/
def overwritten (portfolio : PortfolioCode) (rows : List Bucket) (c : Claim) : List Bucket :=
  (rows.filter fun b => b.letter ∉ c.writes.map Prod.fst) ++ writtenRows portfolio c

/-- A claim writes the claimed letter, and the one that it opens. -/
theorem mem_map_fst_writes {c : Claim} {letter : Letter} :
    letter ∈ c.writes.map Prod.fst ↔ letter = c.letter ∨ c.opened = some letter := by
  unfold Claim.writes
  cases c.opened <;> simp [eq_comm]

/-- Recording a claim changes the buckets under its letters and no others. -/
theorem recorded_eq_overwritten {portfolio : PortfolioCode} {rows : List Bucket} {c : Claim}
    (h : Tidy portfolio rows) (htaken : TakenAt rows c) :
    recorded portfolio rows c = overwritten portfolio rows c := by
  rw [recorded_eq h htaken, overwritten]
  congr 1
  apply List.filter_congr
  intro b hb
  rw [decide_eq_decide, mem_map_fst_writes]
  constructor
  · rintro hlt (heq | hopened)
    · exact Letter.ne_of_lt hlt heq
    · exact Letter.ne_of_lt (Letter.lt_trans hlt (htaken.opened _ hopened)) rfl
  · intro hnot
    by_contra hge
    exact hnot (.inl (htaken.eq_of_not_lt h.sorted hb hge).1)

/-- A letter that a claim opens has had no bucket. -/
theorem ne_of_opened {portfolio : PortfolioCode} {rows : List Bucket} {c : Claim}
    (h : Tidy portfolio rows) (htaken : TakenAt rows c) {next : Letter}
    (hnext : c.opened = some next) {b : Bucket} (hb : b ∈ rows) : b.letter ≠ next := by
  have hbehind := htaken.opened next hnext
  by_cases hlt : b.letter < c.letter
  · exact Letter.ne_of_lt (Letter.lt_trans hlt hbehind)
  · rw [(htaken.eq_of_not_lt h.sorted hb hlt).1]
    exact Letter.ne_of_lt hbehind

/-! ## The contract -/

variable {σ : Type} {answer : (c : Call) → σ → Reply c × σ} {keeps : σ → Book → Prop} {start : σ}
  {calls : List Call} {portfolio : PortfolioCode} {expected : Cursor} {capacity : UInt32}

/-- Every portfolio has the buckets that it had. -/
def SameBuckets (answer : (c : Call) → σ → Reply c × σ) (before after : σ) : Prop :=
  ∀ owner, (answer (.buckets owner) after).1 = (answer (.buckets owner) before).1

/-- A claim has taken effect on the buckets `rows` of its portfolio. -/
structure Swapped (answer : (c : Call) → σ → Reply c × σ) (before after : σ)
    (portfolio : PortfolioCode) (rows : List Bucket) (c : Claim) : Prop where
  /-- The buckets under the letters of the claim are those that it writes. -/
  buckets : (answer (.buckets portfolio) after).1 = .ok (overwritten portfolio rows c)
  /-- A letter that comes into use has had no bucket. -/
  created : ∀ next, c.opened = some next → ∀ b ∈ rows, b.letter ≠ next
  /-- Other portfolios have the buckets that they had. -/
  others : ∀ owner, owner ≠ portfolio →
    (answer (.buckets owner) after).1 = (answer (.buckets owner) before).1
  /-- The cursor that is read next is the one after the claim. -/
  active : (answer (.active portfolio) after).1 = .ok (some c.after)
  /-- The letter that comes into use is that of this cursor, if it is another one. -/
  opened : c.opened = if c.after.letter = c.letter then none else some c.after.letter

/-- What a claim does where the portfolio has the cursor `current` and the buckets `rows`. -/
structure Compared (answer : (c : Call) → σ → Reply c × σ) (s : σ) (portfolio : PortfolioCode)
    (expected : Cursor) (capacity : UInt32) (current : Cursor) (rows : List Bucket) : Prop where
  /-- If another cursor was expected, the claim is a conflict. -/
  conflict : current ≠ expected →
    (answer (.claim portfolio expected capacity) s).1 = .ok (.conflict (some current)) ∧
      SameBuckets answer s (answer (.claim portfolio expected capacity) s).2
  /-- If the cursor is at `Z` above the capacity, there is nothing left. -/
  exhausted : current = expected → current.letter = .last ∧ capacity < current.index →
    (answer (.claim portfolio expected capacity) s).1 = .ok (.exhausted current) ∧
      SameBuckets answer s (answer (.claim portfolio expected capacity) s).2
  /-- Otherwise the claim at the cursor takes effect. -/
  claimed : current = expected → ¬ (current.letter = .last ∧ capacity < current.index) →
    ∃ c, current.claim capacity = some c ∧
      (answer (.claim portfolio expected capacity) s).1 = .ok (.claimed portfolio c) ∧
      Swapped answer s (answer (.claim portfolio expected capacity) s).2 portfolio rows c

/-- A claim is compared with the cursor that the store reads, and with the buckets that it reads. -/
def ComparesAndSwaps (answer : (c : Call) → σ → Reply c × σ) (s : σ) (portfolio : PortfolioCode)
    (expected : Cursor) (capacity : UInt32) : Prop :=
  ∃ active rows, (answer (.active portfolio) s).1 = .ok active ∧
    (answer (.buckets portfolio) s).1 = .ok rows ∧
    Compared answer s portfolio expected capacity (active.getD .start) rows

/-- Under a capacity of at least one, there is no claim exactly at `Z` above the capacity. -/
theorem claim_eq_none_iff {s : Cursor} (hone : 1 ≤ capacity.toNat) :
    s.claim capacity = none ↔ s.letter = .last ∧ capacity < s.index := by
  refine ⟨Cursor.past_of_claim_eq_none, ?_⟩
  rintro ⟨hlast, habove⟩
  cases hclaim : s.claim capacity with
  | none => rfl
  | some c =>
    -- A claim at `Z` takes the number at the cursor, which the capacity would have to admit.
    have hsequence := (Cursor.claim_at_last hclaim hlast).2.1
    have hle := Cursor.sequence_le_of_claim hclaim
    rw [hsequence] at hle
    rw [UInt32.lt_iff_toNat_lt] at habove
    omega

/-- A store that keeps a tidy book has the contract, as long as there is a version to spare. -/
theorem LastingBookkeeping.compared (h : LastingBookkeeping answer keeps start) {s : σ} {b : Book}
    (hkeeps : keeps s b) (htidy : b.AllTidy) (hfits : b.Fits 1) (hnumbered : 0 < column portfolio)
    (hone : 1 ≤ capacity.toNat) :
    Compared answer s portfolio expected capacity (cursorOf (b.rows portfolio))
      (b.rows portfolio) := by
  obtain ⟨hreply, hafter⟩ := h.serves (.claim portfolio expected capacity) s b hnumbered htidy
    hfits.length_claims_le hkeeps
  have hbuckets := h.buckets hkeeps htidy hfits
  -- A claim that is not planned leaves the book, and with it all buckets.
  have hrefused : ∀ outcome,
      plan (cursorOf (b.rows portfolio)) expected capacity = .error outcome →
      (answer (.claim portfolio expected capacity) s).1 = .ok outcome ∧
        SameBuckets answer s (answer (.claim portfolio expected capacity) s).2 := by
    intro outcome hplan
    rw [Book.answer_claim_of_error hplan] at hreply hafter
    exact ⟨hreply, fun owner =>
      (h.buckets hafter htidy hfits owner).trans (hbuckets owner).symm⟩
  refine ⟨fun hne => ?_, fun heq hpast => ?_, fun heq hnot => ?_⟩
  · exact hrefused _ (if_neg hne)
  · apply hrefused
    unfold plan
    rw [if_pos heq, (claim_eq_none_iff hone).mpr hpast]
  · obtain ⟨c, hclaim⟩ := Option.ne_none_iff_exists'.mp
      (fun hnone => hnot ((claim_eq_none_iff hone).mp hnone))
    have hplan : plan (cursorOf (b.rows portfolio)) expected capacity = .ok c := by
      unfold plan
      rw [if_pos heq, hclaim]
    have htaken := takenAt_of_claim (htidy portfolio).sorted hclaim
    have htidy' := htidy.answer (.claim portfolio expected capacity)
    have hfits' := hfits.answer (.claim portfolio expected capacity)
    rw [Book.answer_claim_of_ok hplan] at hreply hafter htidy' hfits'
    refine ⟨c, hclaim, hreply, ?_, fun next hnext b hb => ?_, fun owner howner => ?_, ?_,
      Claim.opened_eq_after htaken.opened⟩
    · rw [h.buckets hafter htidy' hfits', Book.rows_record_self,
        recorded_eq_overwritten (htidy portfolio) htaken]
    · exact ne_of_opened (htidy portfolio) htaken hnext hb
    · rw [h.buckets hafter htidy' hfits', Book.rows_record_ne _ _ howner, hbuckets]
    · rw [h.active hafter htidy' hfits', Book.rows_record_self,
        lastCursor_recorded (htidy portfolio) htaken]

/-- A store that keeps the book has the contract after any calls that leave a version to spare. -/
theorem LastingBookkeeping.comparesAndSwaps (h : LastingBookkeeping answer keeps start)
    (hcalls : calls.length < Numeral.limit64 ∨ ∀ c ∈ calls, c.IsBounded)
    (hnumbered : 0 < column portfolio) (hone : 1 ≤ capacity.toNat) :
    ComparesAndSwaps answer (converse answer calls start).2 portfolio expected capacity := by
  obtain ⟨b, hkeeps, htidy, hfits⟩ := h.reached hcalls
  exact ⟨lastCursor (b.rows portfolio), b.rows portfolio, h.active hkeeps htidy hfits portfolio,
    h.buckets hkeeps htidy hfits portfolio, h.compared hkeeps htidy hfits hnumbered hone⟩

/-- Whatever was called on an empty store before, and whichever cursor a claim expects: the claim is
a conflict if the portfolio has another cursor, there is nothing left if this cursor is at `Z` above
the capacity, and otherwise the claim at the cursor takes effect and changes what it writes and
nothing else. This needs versions within sixty-four bits, as always under capacities below the
highest number. -/
theorem claims_compare_and_swap (folder : Option String) (clock : Nat → Timestamp)
    {calls : List Call} (hcalls : calls.length < 2 ^ 63 - 1 ∨ ∀ c ∈ calls, c.IsBounded)
    {portfolio : PortfolioCode} (hnumbered : 0 < column portfolio) (expected : Cursor)
    {capacity : UInt32} (hone : 1 ≤ capacity.toNat) :
    ComparesAndSwaps (LedgerStore.serve folder clock)
        (converse (LedgerStore.serve folder clock) calls .empty).2 portfolio expected capacity ∧
      ComparesAndSwaps SharedDatabase.answer (converse SharedDatabase.answer calls .fresh).2
        portfolio expected capacity := by
  have hlimit : Numeral.limit64 = 2 ^ 63 - 1 := Numeral.highest_eq 2 63
  rw [← hlimit] at hcalls
  constructor
  · exact (LedgerStore.lastingBookkeeping folder clock).comparesAndSwaps hcalls hnumbered hone
  · exact SharedDatabase.lastingBookkeeping.comparesAndSwaps hcalls hnumbered hone

/-- Two claims that leave `A` half used. -/
def halfUsed : List Call := [.claim ⟨7⟩ .start 5, .claim ⟨7⟩ ⟨.first, 2⟩ 5]

/-- At a capacity of one, the third claim skips `A` and fills `B`, so `C` comes into use at once. -/
theorem claims_compare_and_swap_half_used :
    (SharedDatabase.answer (.claim ⟨7⟩ ⟨.first, 3⟩ 1)
        (converse SharedDatabase.answer halfUsed .fresh).2).1 =
        .ok (.claimed ⟨7⟩ ⟨⟨1⟩, 1, .opens ⟨2⟩⟩) ∧
      ComparesAndSwaps (LedgerStore.serve none fun _ => .epoch)
        (converse (LedgerStore.serve none fun _ => .epoch) halfUsed .empty).2 ⟨7⟩ ⟨.first, 3⟩ 1 ∧
      ComparesAndSwaps SharedDatabase.answer (converse SharedDatabase.answer halfUsed .fresh).2
        ⟨7⟩ ⟨.first, 3⟩ 1 := by
  refine ⟨rfl, ?_⟩
  exact claims_compare_and_swap none (fun _ => .epoch) (.inl (by decide)) (by decide) ⟨.first, 3⟩
    (by decide)

end Store

end ReferenceMint
