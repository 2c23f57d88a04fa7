import ReferenceMint.Proofs.Storage.Versions
import ReferenceMint.Proofs.Store.Serving

/-!
# The shape of stored buckets

The buckets of a portfolio stand for the letters from `A` up to the one in use, each letter once and
in order (`Shaped`). A letter only comes into use when the one before it is full, or is past a
capacity that was lowered, so every letter below the one in use has issued a sequence (`Filled`). A
claim keeps this, whether it is the first one, stays in its letter, opens the next one, or skips a
letter and opens another one behind it at once (`Filled.recorded`).

Buckets are never taken away, and no index is ever lowered (`Book.Step.extends`). So a ledger that
was once written always has a bucket (`LedgerStore.Keeps.rows_ne_nil`).
-/

namespace ReferenceMint.Store

/-! ## Letters in use -/

/-- The letters in use have no gap, and all but the highest of them have issued a sequence. -/
structure Filled (rows : List Bucket) : Prop where
  /-- Below a letter in use every letter is in use. -/
  reaches : ∀ b ∈ rows, ∀ letter, letter < b.letter → ∃ lower ∈ rows, lower.letter = letter
  /-- A bucket below another one has issued a sequence. -/
  used : ∀ b ∈ rows, ∀ higher ∈ rows, b.letter < higher.letter → 2 ≤ b.index.toNat

variable {portfolio : PortfolioCode} {rows : List Bucket} {capacity : UInt32} {c : Claim}

/-- A letter below the next one is a lower one or the same. -/
theorem lt_or_eq_of_lt_next {letter other next : Letter} (hnext : letter.next? = some next)
    (h : other < next) : other < letter ∨ other = letter := by
  have hplace := Letter.next?_eq_some hnext
  rw [Letter.lt_iff] at h
  rcases Nat.lt_or_eq_of_le (show other.position.val ≤ letter.position.val by omega) with hlt | heq
  · exact .inl (Letter.lt_iff.mpr hlt)
  · exact .inr (Letter.ext_position heq)

/-- Without buckets a claim takes the first letter. -/
theorem letter_eq_first_of_claim (h : (cursorOf []).claim capacity = some c) :
    c.letter = .first := by
  rcases Cursor.claim_cases h with ⟨-, rfl⟩ | ⟨hpast, -⟩
  · rfl
  · -- Every capacity admits the first sequence.
    have hone : (1 : UInt32).toNat = 1 := rfl
    have hle : (cursorOf []).index ≤ max capacity 1 := by
      show (1 : UInt32) ≤ max capacity 1
      rw [UInt32.le_iff_toNat_le, toNat_max]
      omega
    exact absurd hle hpast

/-- All letters below a claimed one are in use. -/
theorem Filled.exists_lower (h : Filled rows) (hclaim : (cursorOf rows).claim capacity = some c)
    {letter : Letter} (hlt : letter < c.letter) : ∃ b ∈ rows, b.letter = letter := by
  rcases List.eq_nil_or_concat' rows with rfl | ⟨front, last, rfl⟩
  · rw [letter_eq_first_of_claim hclaim] at hlt
    exact absurd (Letter.lt_iff.mp hlt) (Nat.not_lt_zero _)
  · rw [cursorOf_concat] at hclaim
    rcases Cursor.claim_cases hclaim with ⟨-, rfl⟩ | ⟨-, next, hnext, rfl⟩
    · exact h.reaches last (by simp) letter hlt
    · -- Between the last letter and the claimed one there is none.
      rcases lt_or_eq_of_lt_next hnext hlt with hlower | rfl
      · exact h.reaches last (by simp) letter hlower
      · exact ⟨last, by simp, rfl⟩

/-- A bucket below a claimed letter has issued a sequence. -/
theorem Filled.two_le_index (h : Filled rows)
    (hsorted : rows.Pairwise fun a b => a.letter < b.letter)
    (hclaim : (cursorOf rows).claim capacity = some c) {b : Bucket} (hb : b ∈ rows)
    (hlt : b.letter < c.letter) : 2 ≤ b.index.toNat := by
  rcases List.eq_nil_or_concat' rows with rfl | ⟨front, last, rfl⟩
  · exact absurd hb (by simp)
  · rw [cursorOf_concat] at hclaim
    rcases List.mem_append.mp hb with hfront | hlast
    · exact h.used b hb last (by simp) (lt_last_of_sorted hsorted b hfront)
    · obtain rfl : b = last := by simpa using hlast
      rcases Cursor.claim_cases hclaim with ⟨-, rfl⟩ | ⟨hpast, -⟩
      · exact absurd rfl (Letter.ne_of_lt hlt)
      · -- The last letter is skipped only past the capacity, which is at least one.
        have hpast : ¬ b.index ≤ max capacity 1 := hpast
        have hone : (1 : UInt32).toNat = 1 := rfl
        rw [UInt32.le_iff_toNat_le, toNat_max] at hpast
        omega

/-- A claim leaves the letters in use without a gap, and opens no letter before the one below it has
issued a sequence. -/
theorem Filled.recorded (h : Filled rows) (htidy : Tidy portfolio rows)
    (hclaim : (cursorOf rows).claim capacity = some c) : Filled (recorded portfolio rows c) := by
  have htaken := takenAt_of_claim htidy.sorted hclaim
  have hmem := mem_recorded htidy htaken
  have hlower : ∀ letter, letter < c.letter →
      ∃ lower ∈ Store.recorded portfolio rows c, lower.letter = letter := by
    intro letter hlt
    obtain ⟨b, hb, rfl⟩ := h.exists_lower hclaim hlt
    exact ⟨b, (hmem b).mpr (.inl ⟨hb, hlt⟩), rfl⟩
  refine ⟨fun b hb letter hlt => ?_, fun b hb higher hhigher hlt => ?_⟩
  · rcases (hmem b).mp hb with ⟨-, hbefore⟩ | rfl | ⟨next, hnext, rfl⟩
    · exact hlower letter (Letter.lt_trans hlt hbefore)
    · exact hlower letter hlt
    · rcases lt_or_eq_of_lt_next (Cursor.next?_of_claim_opened hclaim hnext) hlt with hlt | rfl
      · exact hlower letter hlt
      · exact ⟨_, (hmem _).mpr (.inr (.inl rfl)), rfl⟩
  · rcases (hmem b).mp hb with ⟨hbefore, hltb⟩ | rfl | ⟨next, hnext, rfl⟩
    · exact h.two_le_index htidy.sorted hclaim hbefore hltb
    · exact two_le_toNat_successor (htaken.one_le_sequence htidy)
    · -- Nothing is behind a letter that the claim opens.
      have hbehind := htaken.opened next hnext
      rcases (hmem higher).mp hhigher with ⟨-, hbefore⟩ | rfl | ⟨other, hother, rfl⟩
      · exact absurd rfl (Letter.ne_of_lt (Letter.lt_trans (Letter.lt_trans hlt hbefore) hbehind))
      · exact absurd rfl (Letter.ne_of_lt (Letter.lt_trans hlt hbehind))
      · rw [hnext] at hother
        exact absurd (Option.some.inj hother) (Letter.ne_of_lt hlt)

/-- Claims that lead from no bucket to these buckets leave no gap. -/
theorem History.filled {claims : List Claim} (h : History portfolio claims rows) : Filled rows := by
  induction h with
  | nil => exact ⟨by simp, by simp⟩
  | claim before _ taken ih => exact ih.recorded before.tidy taken

/-- After a claim there is a bucket. -/
theorem History.rows_ne_nil {claims : List Claim} (h : History portfolio claims rows)
    (hne : claims ≠ []) : rows ≠ [] := by
  cases h with
  | nil => exact absurd rfl hne
  | claim before _ taken =>
    have htaken := takenAt_of_claim before.tidy.sorted taken
    exact List.ne_nil_of_mem ((mem_recorded before.tidy htaken _).mpr (.inr (.inl rfl)))

/-! ## The shape of the buckets that a store shows -/

/-- The buckets of a portfolio, and the cursor that is read from them, have the shape in which a
store keeps them. -/
structure Shaped (portfolio : PortfolioCode) (rows : List Bucket) (active : Option Cursor) :
    Prop where
  /-- The buckets are the portfolio's. -/
  owned : ∀ b ∈ rows, b.portfolio = portfolio
  /-- Each letter is before the next. -/
  sorted : rows.Pairwise fun a b => a.letter < b.letter
  /-- The letters are those from `A` up to the one in use. -/
  letters : ∀ letter, (∃ b ∈ rows, b.letter = letter) ↔
    ∃ cursor, active = some cursor ∧ letter ≤ cursor.letter
  /-- No index is zero. -/
  started : ∀ b ∈ rows, 1 ≤ b.index.toNat
  /-- A bucket below the one in use has issued a sequence. -/
  used : ∀ b ∈ rows, ∀ cursor, active = some cursor → b.letter < cursor.letter → 2 ≤ b.index.toNat

/-- Tidy buckets without a gap have the shape, together with the cursor at the last of them. -/
theorem Filled.shaped (h : Filled rows) (htidy : Tidy portfolio rows) :
    Shaped portfolio rows (lastCursor rows) := by
  refine ⟨htidy.owned, htidy.sorted, fun letter => ?_, htidy.started,
    fun b hb cursor hcursor hlt => ?_⟩
  · rcases List.eq_nil_or_concat' rows with rfl | ⟨front, last, rfl⟩
    · simp [lastCursor]
    · rw [lastCursor_concat]
      constructor
      · rintro ⟨b, hb, rfl⟩
        refine ⟨_, rfl, ?_⟩
        rcases List.mem_append.mp hb with hfront | hlast
        · exact Nat.le_of_lt (Letter.lt_iff.mp (lt_last_of_sorted htidy.sorted b hfront))
        · obtain rfl : b = last := by simpa using hlast
          exact Letter.le_iff.mpr (Nat.le_refl _)
      · rintro ⟨cursor, heq, hle⟩
        obtain rfl := Option.some.inj heq
        rcases Nat.lt_or_eq_of_le (Letter.le_iff.mp hle) with hlt | heq
        · exact h.reaches last (by simp) letter (Letter.lt_iff.mpr hlt)
        · exact ⟨last, by simp, (Letter.ext_position heq).symm⟩
  · obtain ⟨last, hlast, rfl⟩ := Option.map_eq_some_iff.mp hcursor
    exact h.used b hb last (List.mem_of_getLast? hlast) hlt

/-- The later buckets have each of the earlier ones, with an index that is not lower. -/
def Extends (earlier later : List Bucket) : Prop :=
  ∀ b ∈ earlier, ∃ kept ∈ later, kept.portfolio = b.portfolio ∧ kept.letter = b.letter ∧
    b.index.toNat ≤ kept.index.toNat

/-- A step takes no bucket away and lowers no index. -/
theorem Book.Step.extends {d : Call} {b after : Book} {reply : Reply d}
    (h : Book.Step d b reply after) (htidy : b.AllTidy) (portfolio : PortfolioCode) :
    Extends (b.rows portfolio) (after.rows portfolio) := by
  have hsame : Extends (b.rows portfolio) (b.rows portfolio) := fun row hrow =>
    ⟨row, hrow, rfl, rfl, Nat.le_refl _⟩
  rcases h with hanswer | ⟨-, rfl⟩
  · obtain rfl : after = (b.answer d).2 := congrArg Prod.snd hanswer
    rcases b.answer_cases d with heq | ⟨owner, expected, capacity, claim, rfl, hplan, hrecord⟩
    · rw [heq]
      exact hsame
    · rw [hrecord]
      by_cases howner : portfolio = owner
      · subst howner
        rw [rows_record_self]
        have htaken := takenAt_of_claim (htidy portfolio).sorted (plan_eq_ok hplan).2
        exact fun row hrow => exists_le_of_recorded (htidy portfolio) htaken hrow
      · rw [rows_record_ne _ _ howner]
        exact hsame
  · exact hsame

variable {σ : Type} {answer : (c : Call) → σ → Reply c × σ} {keeps : σ → Book → Prop} {start : σ}
  {calls : List Call}

/-- The buckets that a store shows have their shape, and whatever is called next takes no bucket
away and lowers no index. -/
def KeepsShape (answer : (c : Call) → σ → Reply c × σ) (s : σ) : Prop :=
  ∀ portfolio, ∃ rows active, (answer (.buckets portfolio) s).1 = .ok rows ∧
    (answer (.active portfolio) s).1 = .ok active ∧ Shaped portfolio rows active ∧
    ∀ c : Call, c.IsBounded → ∃ later,
      (answer (.buckets portfolio) (answer c s).2).1 = .ok later ∧ Extends rows later

/-- A store that keeps the book has its buckets in shape after any calls. -/
theorem Bookkeeping.keepsShape (h : Bookkeeping answer keeps start)
    (hcalls : ∀ c ∈ calls, c.IsBounded) : KeepsShape answer (converse answer calls start).2 := by
  obtain ⟨b, hkeeps, hhistory, -⟩ := h.reached hcalls
  intro portfolio
  refine ⟨b.rows portfolio, lastCursor (b.rows portfolio),
    h.serves.buckets hkeeps hhistory portfolio, h.serves.active hkeeps hhistory portfolio,
    (hhistory portfolio).filled.shaped (hhistory portfolio).tidy, fun c hc => ?_⟩
  obtain ⟨after, hafter, hstep⟩ := h.follows c _ b hc hhistory hkeeps
  refine ⟨after.rows portfolio, ?_, hstep.extends hhistory.allTidy portfolio⟩
  exact h.serves.buckets hafter (hstep.hasHistory hhistory hc) portfolio

/-! ## Ledgers -/

/-- What every call keeps, all calls keep. -/
theorem converse_keeps {P : σ → Prop} (step : ∀ c s, P s → P (answer c s).2) (calls : List Call)
    {s : σ} (hs : P s) : P (converse answer calls s).2 := by
  induction calls generalizing s with
  | nil => exact hs
  | cons c calls ih => exact ih (step c s hs)

namespace LedgerStore

open Storage (Memory.answer Objects Object)

/-- Every object was written at least once. -/
def AllWritten (objects : Objects) : Prop :=
  ∀ path object, objects.get? path = some object → 1 ≤ object.version

/-- Whatever is called, every object was written at least once. -/
theorem allWritten_converse (folder : Option String) (clock : Nat → Timestamp) (calls : List Call) :
    AllWritten (converse (serve folder clock) calls .empty).2.objects := by
  have hserve : ∀ c (shelf : Shelf), AllWritten shelf.objects →
      AllWritten (serve folder clock c shelf).2.objects := by
    intro c shelf hshelf
    simp only [serve, Program.state_run]
    exact Program.value_keeps (fun call objects hobjects path object =>
      Storage.one_le_version_answer call (hobjects path)) _ hshelf
  have hstart : AllWritten Shelf.empty.objects := fun path object hobject =>
    absurd hobject (by simp [Shelf.empty, Objects.get?])
  exact converse_keeps (P := fun shelf : Shelf => AllWritten shelf.objects) hserve calls hstart

/-- A ledger that exists has a bucket. -/
theorem Keeps.rows_ne_nil {folder : Option String} {shelf : Shelf} {b : Book}
    (h : Keeps folder shelf b) (hhistory : b.HasHistory) {time : Timestamp}
    {portfolio : PortfolioCode} {object : Object} (hwritten : AllWritten shelf.objects)
    (hobject : shelf.objects.get? ((LedgerStore.mk folder time).path portfolio) = some object) :
    ∃ ledger,
      decode ((LedgerStore.mk folder time).path portfolio) portfolio object.data = .ok ledger ∧
      ledger.rows ≠ [] := by
  have hshelves := h time
  obtain ⟨ledger, hheld, hrows⟩ := held_of_heldBuckets (hshelves.buckets portfolio)
  rw [held_of_some hobject] at hheld
  refine ⟨ledger, hheld, ?_⟩
  rw [hrows]
  -- There are at least as many claims as versions, so there was one.
  have hone := hwritten _ object hobject
  have hle := hshelves.versions portfolio object hobject
  apply (hhistory portfolio).rows_ne_nil
  intro hnil
  rw [hnil, List.length_nil] at hle
  omega

end LedgerStore

/-- Whatever is called on an empty store, at capacities that may change from claim to claim: the
buckets of each portfolio are its own, in order, for all letters from `A` up to the one in use, with
indexes from one on, and from two on below the letter in use. No call takes a bucket away or lowers
an index, and no ledger in storage is without buckets. -/
theorem buckets_keep_their_shape (folder : Option String) (clock : Nat → Timestamp)
    {calls : List Call} (h : ∀ c ∈ calls, c.IsBounded) :
    KeepsShape (LedgerStore.serve folder clock)
        (converse (LedgerStore.serve folder clock) calls .empty).2 ∧
      KeepsShape SharedDatabase.answer (converse SharedDatabase.answer calls .fresh).2 ∧
      ∀ time portfolio object,
        (converse (LedgerStore.serve folder clock) calls .empty).2.objects.get?
          ((LedgerStore.mk folder time).path portfolio) = some object →
        ∃ ledger, LedgerStore.decode ((LedgerStore.mk folder time).path portfolio) portfolio
          object.data = .ok ledger ∧ ledger.rows ≠ [] := by
  have hledgers := LedgerStore.bookkeeping folder clock
  refine ⟨hledgers.keepsShape h, SharedDatabase.bookkeeping.keepsShape h, ?_⟩
  intro time portfolio object hobject
  obtain ⟨b, hkeeps, hhistory, -⟩ := hledgers.reached h
  exact hkeeps.rows_ne_nil hhistory (LedgerStore.allWritten_converse folder clock calls) hobject

/-- Three claims of a new portfolio, where the last one has a capacity of one: it skips `A`, which
is half used, and fills `B`. -/
def skipped : List Call :=
  [.claim ⟨7⟩ .start 5, .claim ⟨7⟩ ⟨.first, 2⟩ 5, .claim ⟨7⟩ ⟨.first, 3⟩ 1]

/-- The skipped letter keeps its index, and both letters behind it have their buckets. -/
theorem buckets_keep_their_shape_skipped :
    (SharedDatabase.answer (.buckets ⟨7⟩) (converse SharedDatabase.answer skipped .fresh).2).1 =
        .ok [⟨⟨7⟩, .first, 3⟩, ⟨⟨7⟩, ⟨1⟩, 2⟩, ⟨⟨7⟩, ⟨2⟩, 1⟩] ∧
      KeepsShape (LedgerStore.serve none fun _ => .epoch)
        (converse (LedgerStore.serve none fun _ => .epoch) skipped .empty).2 ∧
      KeepsShape SharedDatabase.answer (converse SharedDatabase.answer skipped .fresh).2 := by
  have hbounded : ∀ c ∈ skipped, c.IsBounded := by decide
  obtain ⟨hledgers, hdatabase, -⟩ := buckets_keep_their_shape none (fun _ => .epoch) hbounded
  exact ⟨rfl, hledgers, hdatabase⟩

end ReferenceMint.Store
