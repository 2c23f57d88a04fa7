import Mathlib.Data.List.Nodup
import ReferenceMint.Audit
import ReferenceMint.Proofs.Accounting
import ReferenceMint.Proofs.Configuration

/-!
# What the audits decide

The audit for repetitions passes exactly if no two references have the same text
(`Audit.unique_iff`). The audit for gaps passes exactly if every reference is read and the sequences
under each letter are the numbers from one on, each once and in any order (`Audit.gapless_iff`). It
implies the other audit, as then no triple comes twice, and a triple has only one text
(`Audit.unique_of_gapless`).

What was claimed from a portfolio under a letter are the sequences below the index of its bucket, so
the claims behind buckets have no gap (`Audit.contiguous_of_history`). Issues in turn account for
them, so the references that are issued from a fresh portfolio on pass both audits
(`Audit.audits_are_exact`).
-/

namespace ReferenceMint.Audit

open Store

/-! ## Repetitions -/

/-- The audit for repetitions passes exactly if no reference is repeated. -/
theorem unique_iff_nodup {refs : List Reference} : unique refs = true ↔ refs.Nodup := by
  induction refs with
  | nil => simp [unique]
  | cons r rest ih =>
    rw [unique, List.nodup_cons, Bool.and_eq_true, ih]
    simp

/-- So it passes exactly if the texts differ from each other. -/
theorem unique_iff {refs : List Reference} :
    unique refs = true ↔ (refs.map Reference.text).Nodup := by
  have htext : Function.Injective Reference.text := by
    rintro ⟨text⟩ ⟨other⟩ rfl
    rfl
  rw [unique_iff_nodup, List.nodup_map_iff htext]

/-! ## Gaps -/

/-- The sequences under a letter, in the order of the triples. -/
def numbersUnder (letter : Letter) (ts : List Triple) : List Nat :=
  (ts.filter fun t => t.letter = letter).map fun t => t.sequence.toNat

/-- The sequences under each letter that occurs are, in some order, the numbers from one on up to
how many they are. -/
def Contiguous (ts : List Triple) : Prop :=
  ∀ t ∈ ts, (numbersUnder t.letter ts).Perm (List.range' 1 (numbersUnder t.letter ts).length)

/-- The references are read as the triples. -/
def Reads (l : Layout) (refs : List Reference) (ts : List Triple) : Prop :=
  List.Forall₂ (fun r t => l.read r.text = .ok t) refs ts

variable {l : Layout} {refs : List Reference} {ts : List Triple} {letter : Letter}

/-- The sequences under a letter are those of the triples with the letter. -/
theorem mem_numbersUnder {n : Nat} :
    n ∈ numbersUnder letter ts ↔ ∃ t ∈ ts, t.letter = letter ∧ t.sequence.toNat = n := by
  simp [numbersUnder, and_assoc]

/-- Under a letter that does not occur there is no sequence, and so no gap. -/
theorem Contiguous.perm (h : Contiguous ts) (letter : Letter) :
    (numbersUnder letter ts).Perm (List.range' 1 (numbersUnder letter ts).length) := by
  rcases List.eq_nil_or_concat (numbersUnder letter ts) with hnil | ⟨front, n, hconcat⟩
  · rw [hnil]
    exact .refl _
  · have hn : n ∈ numbersUnder letter ts := by simp [hconcat]
    obtain ⟨t, ht, rfl, -⟩ := mem_numbersUnder.mp hn
    exact h t ht

/-- Numbers sort to the numbers from one on exactly if they are these in some order. -/
theorem mergeSort_eq_range'_iff {ns : List Nat} {count : Nat} :
    ns.mergeSort = List.range' 1 count ↔ ns.Perm (List.range' 1 count) := by
  have hperm : ns.mergeSort.Perm ns := List.mergeSort_perm ns _
  have hsorted : ns.mergeSort.Pairwise (· ≤ ·) := by
    have htrans : ∀ a b c : Nat, decide (a ≤ b) = true → decide (b ≤ c) = true →
        decide (a ≤ c) = true := by
      simpa using fun a b c => Nat.le_trans
    have htotal : ∀ a b : Nat, (decide (a ≤ b) || decide (b ≤ a)) = true := by
      simpa using Nat.le_total
    exact (List.pairwise_mergeSort htrans htotal ns).imp of_decide_eq_true
  constructor
  · intro h
    rw [← h]
    exact hperm.symm
  · intro h
    exact (hperm.trans h).eq_of_pairwise (fun _ _ _ _ => Nat.le_antisymm) hsorted
      (List.pairwise_le_range' 1)

/-- The audit of triples passes exactly if they have no gap. -/
theorem gaplessTriples_iff : gaplessTriples ts = true ↔ Contiguous ts := by
  have hletter : ∀ letter, sequencesOf letter ts = List.range' 1 (sequencesOf letter ts).length ↔
      (numbersUnder letter ts).Perm (List.range' 1 (numbersUnder letter ts).length) := by
    intro letter
    have hlength : (sequencesOf letter ts).length = (numbersUnder letter ts).length :=
      List.length_mergeSort _
    rw [hlength]
    exact mergeSort_eq_range'_iff
  have hall : ∀ letter, letter ∈ Letter.all := by simp [Letter.all]
  unfold gaplessTriples
  simp only [List.all_eq_true, decide_eq_true_eq, hletter]
  exact ⟨fun h t _ => h t.letter (hall t.letter), fun h letter _ => h.perm letter⟩

/-- Steps of which the failures are forgotten are taken like the steps themselves. -/
theorem mapM_toOption {α β ε : Type} (f : α → Except ε β) (as : List α) :
    as.mapM (fun a => (f a).toOption) = (as.mapM f).toOption := by
  induction as with
  | nil => rfl
  | cons a as ih =>
    rw [List.mapM_cons, List.mapM_cons, ih]
    cases f a with
    | error e => rfl
    | ok b => cases as.mapM f <;> rfl

/-- The triples are those that the layout reads, if it reads all references. -/
theorem reads_iff :
    (refs.mapM fun r => (l.read r.text).toOption) = some ts ↔ Reads l refs ts := by
  unfold Reads
  rw [mapM_toOption, ← mapM_eq_ok_iff]
  cases refs.mapM fun r => l.read r.text <;> simp [Except.toOption]

/-- The audit for gaps passes exactly if all references are read and their triples have no gap. -/
theorem gapless_iff : gapless l refs = true ↔ ∃ ts, Reads l refs ts ∧ Contiguous ts := by
  unfold gapless
  cases hread : refs.mapM fun r => (l.read r.text).toOption with
  | none => simp [← reads_iff, hread]
  | some ts => simp [← reads_iff, hread, gaplessTriples_iff]

/-- Each triple is read from a reference. -/
theorem Reads.exists_read (h : Reads l refs ts) {t : Triple} (ht : t ∈ ts) :
    ∃ r : Reference, l.read r.text = .ok t := by
  obtain ⟨i, hi, rfl⟩ := List.mem_iff_getElem.mp ht
  have hi' : i < refs.length := by
    rw [List.Forall₂.length_eq h]
    exact hi
  exact ⟨refs[i], List.Forall₂.get h hi' hi⟩

/-- Of what is read without a gap, there are no more sequences under a letter than the layout can
write. -/
theorem length_numbersUnder_le (hreads : Reads l refs ts) (h : Contiguous ts) (letter : Letter) :
    (numbersUnder letter ts).length ≤ l.largest.toNat := by
  rcases Nat.eq_zero_or_pos (numbersUnder letter ts).length with hzero | hpos
  · rw [hzero]
    exact Nat.zero_le _
  · -- How many there are is the highest of them.
    have hlast : (numbersUnder letter ts).length ∈ numbersUnder letter ts :=
      (h.perm letter).mem_iff.mpr (List.mem_range'_1.mpr (by omega))
    obtain ⟨t, ht, -, hsequence⟩ := mem_numbersUnder.mp hlast
    obtain ⟨r, hread⟩ := hreads.exists_read ht
    have hlt := Layout.sequence_lt_of_write (Layout.write_of_read hread)
    rw [Layout.toNat_largest]
    omega

/-! ## One audit implies the other -/

/-- Without a gap no triple comes twice. -/
theorem Contiguous.nodup (h : Contiguous ts) : ts.Nodup := by
  rw [List.nodup_iff_sublist]
  intro t htwice
  have ht : t ∈ ts := htwice.subset List.mem_cons_self
  -- A triple that came twice would have its sequence twice under its letter.
  have hnumbers : [t.sequence.toNat, t.sequence.toNat].Sublist (numbersUnder t.letter ts) := by
    have hunder := (htwice.filter fun u => u.letter = t.letter).map fun u => u.sequence.toNat
    rwa [List.filter_eq_self.mpr (by simp)] at hunder
  have hnodup : (numbersUnder t.letter ts).Nodup := (h t ht).nodup_iff.mpr (List.nodup_range' 1)
  exact List.nodup_iff_sublist.mp hnodup _ hnumbers

/-- References are read as different triples exactly if they are different. -/
theorem nodup_iff_of_reads (hreads : Reads l refs ts) : refs.Nodup ↔ ts.Nodup := by
  refine List.rel_nodup ⟨?_, ?_⟩ hreads
  · rintro ⟨text⟩ t ⟨other⟩ hread hread'
    exact Except.ok.inj ((Layout.write_of_read hread).symm.trans (Layout.write_of_read hread'))
  · intro r t u hread hread'
    exact Except.ok.inj (hread.symm.trans hread')

/-- What passes the audit for gaps passes the audit for repetitions. -/
theorem unique_of_gapless (h : gapless l refs = true) : unique refs = true := by
  obtain ⟨ts, hreads, hcontiguous⟩ := gapless_iff.mp h
  exact unique_iff_nodup.mpr ((nodup_iff_of_reads hreads).mpr hcontiguous.nodup)

/-! ## What is issued passes -/

section

variable {portfolio : PortfolioCode} {claims : List Claim} {rows : List Bucket}

/-- No triple is claimed twice. -/
theorem nodup_claimed (h : History portfolio claims rows) :
    (claims.map (tripleOf portfolio)).Nodup := by
  refine List.pairwise_map.mpr (h.pairwise_rank.imp fun hlt heq => ?_)
  obtain ⟨-, hletter, hsequence⟩ := Triple.mk.inj heq
  unfold Claim.rank at hlt
  rw [hletter, hsequence] at hlt
  exact Nat.lt_irrefl _ hlt

/-- Of one portfolio, different triples with the same letter have different sequences. -/
theorem nodup_numbersUnder (hts : ts.Nodup) (howned : ∀ t ∈ ts, t.portfolio = portfolio)
    (letter : Letter) : (numbersUnder letter ts).Nodup := by
  refine (hts.filter _).map_on ?_
  intro t ht u hu hsequence
  obtain ⟨ht, hletter⟩ := List.mem_filter.mp ht
  obtain ⟨hu, hletter'⟩ := List.mem_filter.mp hu
  obtain ⟨code, a, n⟩ := t
  obtain ⟨code', a', n'⟩ := u
  obtain rfl : code = code' := (howned _ ht).trans (howned _ hu).symm
  obtain rfl : a = a' := (of_decide_eq_true hletter).trans (of_decide_eq_true hletter').symm
  obtain rfl : n = n' := UInt32.toNat_inj.mp hsequence
  rfl

/-- What was claimed under the letter of a bucket are the numbers from one up to its index. -/
theorem mem_numbersUnder_iff_lt_index (h : History portfolio claims rows)
    (hts : ts.Perm (claims.map (tripleOf portfolio))) {b : Bucket} (hb : b ∈ rows) {n : Nat} :
    n ∈ numbersUnder b.letter ts ↔ 1 ≤ n ∧ n < b.index.toNat := by
  rw [mem_numbersUnder]
  constructor
  · rintro ⟨t, ht, hletter, rfl⟩
    obtain ⟨c, hc, rfl⟩ := List.mem_map.mp (hts.mem_iff.mp ht)
    exact (h.claimed_iff_lt_index hb).mp ⟨c, hc, hletter, rfl⟩
  · intro hn
    have hlt : n < UInt32.size := Nat.lt_trans hn.2 b.index.toNat_lt
    have hword : (UInt32.ofNat n).toNat = n := UInt32.toNat_ofNat_of_lt' hlt
    rw [← hword] at hn
    obtain ⟨c, hc, hletter, hsequence⟩ := (h.claimed_iff_lt_index hb).mpr hn
    refine ⟨tripleOf portfolio c, hts.mem_iff.mpr (List.mem_map_of_mem hc), hletter, ?_⟩
    rw [← hword, ← hsequence]
    rfl

/-- The triples that were claimed from a portfolio have no gap. -/
theorem contiguous_of_history (h : History portfolio claims rows)
    (hts : ts.Perm (claims.map (tripleOf portfolio))) : Contiguous ts := by
  intro t ht
  obtain ⟨c, hc, rfl⟩ := List.mem_map.mp (hts.mem_iff.mp ht)
  obtain ⟨b, hb, hletter, -⟩ := Store.issued_iff.mp (h.issued_iff.mpr ⟨c, hc, rfl, rfl⟩)
  show (numbersUnder c.letter ts).Perm (List.range' 1 (numbersUnder c.letter ts).length)
  rw [← hletter]
  have hmem : ∀ n, n ∈ numbersUnder b.letter ts ↔ n ∈ List.range' 1 (b.index.toNat - 1) := by
    intro n
    rw [mem_numbersUnder_iff_lt_index h hts hb, List.mem_range'_1]
    omega
  have howned : ∀ t ∈ ts, t.portfolio = portfolio := by
    intro t ht
    obtain ⟨d, -, rfl⟩ := List.mem_map.mp (hts.mem_iff.mp ht)
    rfl
  have hnodup : (numbersUnder b.letter ts).Nodup :=
    nodup_numbersUnder (hts.nodup_iff.mpr (nodup_claimed h)) howned b.letter
  have hperm := (List.perm_ext_iff_of_nodup hnodup (List.nodup_range' 1)).mpr hmem
  have hlength := hperm.length_eq
  rw [List.length_range'] at hlength
  rw [hlength]
  exact hperm

/-- Where the portfolio had issued nothing, the references that account for what was taken from it
pass the audit for gaps. -/
theorem gapless_of_accounts {b after : Book} (hfresh : b.claims portfolio = [])
    (h : Accounts l portfolio b refs after) : gapless l refs = true := by
  obtain ⟨claims, hclaims, hread⟩ := h.taken
  rw [hfresh, List.append_nil] at hclaims
  have hhistory := h.history portfolio
  rw [hclaims] at hhistory
  have hreads : Reads l refs (claims.map (tripleOf portfolio)).reverse := by
    unfold Reads
    rw [← List.forall₂_reverse_iff, List.reverse_reverse, List.forall₂_map_right_iff]
    exact hread.flip
  exact gapless_iff.mpr ⟨_, hreads, contiguous_of_history hhistory (List.reverse_perm _)⟩

end

/-- If the portfolio has no bucket yet, the references that issues in turn return pass both
audits. -/
def PassFromFresh {σ : Type} (answer : (c : Call) → σ → Reply c × σ) (l : Layout)
    (portfolio : PortfolioCode) (turns : List (List Call × Settings)) (state : σ) : Prop :=
  (answer (.buckets portfolio) state).1 = .ok [] →
    unique (Settings.issueInTurn answer portfolio turns state).1 = true ∧
      gapless l (Settings.issueInTurn answer portfolio turns state).1 = true

/-- On a store that keeps the book they do. -/
theorem passFromFresh {σ : Type} {answer : (c : Call) → σ → Reply c × σ} {keeps : σ → Book → Prop}
    {start : σ} (h : Bookkeeping answer keeps start) {portfolio : PortfolioCode}
    {earlier : List Call}
    (hearlier : ∀ c ∈ earlier, c.IsBounded) {turns : List (List Call × Settings)}
    (hturns : ∀ turn ∈ turns, turn.2.layout = l ∧
      ∀ c ∈ turn.1, c.IsBounded ∧ c.portfolio ≠ portfolio) :
    PassFromFresh answer l portfolio turns (converse answer earlier start).2 := by
  intro hfresh
  obtain ⟨b, hkeeps, hb, -⟩ := h.reached hearlier
  rw [h.serves.buckets hkeeps hb] at hfresh
  have hhistory := hb portfolio
  rw [Except.ok.inj hfresh] at hhistory
  obtain ⟨after, -, haccounts⟩ := Settings.accounts_issueInTurn h hturns hkeeps hb
  have hgapless := gapless_of_accounts hhistory.eq_nil haccounts
  exact ⟨unique_of_gapless hgapless, hgapless⟩

/-- The audits pass exactly what they are for, and what is issued passes them:

* the audit for repetitions passes exactly if no two texts are the same;
* the audit for gaps passes exactly if all texts are read and the sequences under each letter that
  occurs are the numbers from one on, in some order. Then there are no more of them than the layout
  can write, so thirty-two bits are enough to count them;
* what passes the audit for gaps passes the audit for repetitions, whether the references are of one
  portfolio or of several;
* on either store, whatever was asked before that left a portfolio without buckets, and whatever is
  asked for other portfolios in between, the references that issues for the portfolio return one
  after the other pass both audits. The issues may have different settings, as long as the layout is
  the same. -/
theorem audits_are_exact :
    (∀ refs, unique refs = true ↔ (refs.map Reference.text).Nodup) ∧
    (∀ l refs, gapless l refs = true ↔ ∃ ts, Reads l refs ts ∧ Contiguous ts) ∧
    (∀ l refs ts, Reads l refs ts → Contiguous ts →
      ∀ letter, (numbersUnder letter ts).length ≤ l.largest.toNat) ∧
    (∀ l refs, gapless l refs = true → unique refs = true) ∧
    ∀ (l : Layout) (portfolio : PortfolioCode) (earlier : List Call)
      (turns : List (List Call × Settings)), (∀ c ∈ earlier, c.IsBounded) →
      (∀ turn ∈ turns, turn.2.layout = l ∧ ∀ c ∈ turn.1, c.IsBounded ∧ c.portfolio ≠ portfolio) →
      (∀ folder clock, PassFromFresh (LedgerStore.serve folder clock) l portfolio turns
        (converse (LedgerStore.serve folder clock) earlier .empty).2) ∧
      PassFromFresh SharedDatabase.answer l portfolio turns
        (converse SharedDatabase.answer earlier .fresh).2 := by
  refine ⟨fun refs => unique_iff, fun l refs => gapless_iff,
    fun l refs ts => length_numbersUnder_le, fun l refs => unique_of_gapless, ?_⟩
  intro l portfolio earlier turns hearlier hturns
  exact ⟨fun folder clock => passFromFresh (LedgerStore.bookkeeping folder clock) hearlier hturns,
    passFromFresh SharedDatabase.bookkeeping hearlier hturns⟩

/-- Somebody else claims from another portfolio first, and then two issues are made with room for
four sequences under each letter and one with room for one. -/
def withLessRoom : List (List Call × Settings) :=
  [([.claim ⟨8⟩ .start 3], .ofOneDigit 4 (by decide)), ([], .ofOneDigit 4 (by decide)),
    ([], .ofOneDigit 1 (by decide))]

/-- References in another order than that in which they were issued. -/
def shuffled : List Reference := [⟨"7B1"⟩, ⟨"7A2"⟩, ⟨"7A1"⟩]

/-- The issue with less room goes on with the next letter, which leaves no gap. The references pass
in any order, and without the first one they do not. -/
theorem audits_are_exact_with_less_room :
    gapless (.ofDigits 1) shuffled = true ∧ unique shuffled = true ∧
    gapless (.ofDigits 1) [⟨"7A2"⟩, ⟨"7B1"⟩] = false ∧
    (Settings.issueInTurn SharedDatabase.answer ⟨7⟩ withLessRoom
        (converse SharedDatabase.answer [.claim ⟨9⟩ .start 2] .fresh).2).1 =
      [⟨"7A1"⟩, ⟨"7A2"⟩, ⟨"7B1"⟩] ∧
    unique [⟨"7A1"⟩, ⟨"7A2"⟩, ⟨"7B1"⟩] = true ∧
    gapless (.ofDigits 1) [⟨"7A1"⟩, ⟨"7A2"⟩, ⟨"7B1"⟩] = true := by
  obtain ⟨-, hgapless, -, hunique, hissued⟩ := audits_are_exact
  have hreads : Reads (.ofDigits 1) shuffled
      [⟨⟨7⟩, ⟨1⟩, 1⟩, ⟨⟨7⟩, .first, 2⟩, ⟨⟨7⟩, .first, 1⟩] := by
    unfold Reads
    decide +kernel
  have hcontiguous : Contiguous [⟨⟨7⟩, ⟨1⟩, 1⟩, ⟨⟨7⟩, .first, 2⟩, ⟨⟨7⟩, .first, 1⟩] := by
    unfold Contiguous
    decide
  have hshuffled := (hgapless (.ofDigits 1) shuffled).mpr ⟨_, hreads, hcontiguous⟩
  have hrefs : (Settings.issueInTurn SharedDatabase.answer ⟨7⟩ withLessRoom
      (converse SharedDatabase.answer [.claim ⟨9⟩ .start 2] .fresh).2).1 =
      [⟨"7A1"⟩, ⟨"7A2"⟩, ⟨"7B1"⟩] := by decide +kernel
  obtain ⟨hdistinct, hpass⟩ := (hissued (.ofDigits 1) ⟨7⟩ [.claim ⟨9⟩ .start 2] withLessRoom
    (by decide) (by decide)).2 rfl
  rw [hrefs] at hdistinct hpass
  exact ⟨hshuffled, hunique _ _ hshuffled, by decide +kernel, hrefs, hdistinct, hpass⟩

end ReferenceMint.Audit
