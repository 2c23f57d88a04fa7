import ReferenceMint.Proofs.CommitOrder

/-!
# What is issued is not issued again

All that tidy buckets have issued lies behind their cursor (`Store.Tidy.rank_lt_of_issued`). A
ledger only moves on from cursor to cursor, and a claim is taken where the ledger stands by then. So
what the buckets of a ledger have issued at some moment is never committed from that moment on
(`CommitsAt.ne_of_issued`), whoever looked at the buckets and however much was claimed since.
-/

namespace ReferenceMint

open Storage (Memory.answer stored)
open Store (LedgerStore Tidy cursorOf tripleOf)

/-- What tidy buckets have issued has a lower rank than their cursor. -/
theorem Store.Tidy.rank_lt_of_issued {portfolio : PortfolioCode} {rows : List Bucket}
    (h : Tidy portfolio rows) {letter : Letter} {sequence : UInt32}
    (hissued : Bucket.issued rows letter sequence = true) :
    rank letter sequence < (cursorOf rows).rank := by
  obtain ⟨b, hb, rfl, -, hlt⟩ := Store.issued_iff.mp hissued
  rcases List.eq_nil_or_concat' rows with rfl | ⟨front, last, rfl⟩
  · exact absurd hb List.not_mem_nil
  · rw [Store.cursorOf_concat]
    unfold Cursor.rank rank
    rcases List.mem_append.mp hb with hb | hb
    · -- A bucket in front has an earlier letter, so its index does not matter.
      have hletter := Letter.lt_iff.mp (Store.lt_last_of_sorted h.sorted b hb)
      have hsequence := sequence.toNat_lt
      show b.letter.position.val * 2 ^ 32 + sequence.toNat <
        last.letter.position.val * 2 ^ 32 + last.index.toNat
      omega
    · obtain rfl : b = last := by simpa using hb
      show b.letter.position.val * 2 ^ 32 + sequence.toNat <
        b.letter.position.val * 2 ^ 32 + b.index.toNat
      omega

section

variable {clients : List Client} {turns : List (Turn Storage.interface)} {start : Nat}
  {s : LedgerStore} {portfolio : PortfolioCode} {rows : List Bucket}

/-- The buckets that storage holds at some moment are tidy, and the ledger stands at their cursor,
if its buckets were tidy at first. -/
theorem standsAt_of_heldBuckets (hgenuine : Genuine (I := Storage.interface) Memory.answer [] turns)
    (hcommits : CommitsFrom clients turns start)
    (htidy : ∀ rows, s.heldBuckets portfolio (stored (turns.take start)) = .ok rows →
      Tidy portfolio rows)
    {n : Nat} (hstart : start ≤ n) (hn : n ≤ turns.length)
    (hrows : s.heldBuckets portfolio (stored (turns.take n)) = .ok rows) :
    Tidy portfolio rows ∧
      ∃ version, s.StandsAt portfolio (stored (turns.take n)) (cursorOf rows) version := by
  cases hfirst : s.heldBuckets portfolio (stored (turns.take start)) with
  | error failure =>
    have hclash := (heldBuckets_eq_error hgenuine hcommits hstart hn hfirst).symm.trans hrows
    exact absurd hclash (by simp)
  | ok first =>
    obtain ⟨cursor, version, hstands, -⟩ := standsAt_take hgenuine hcommits (Nat.le_refl _) hstart
      hn ⟨first, hfirst, htidy first hfirst, rfl, rfl⟩
    obtain ⟨held, hheld, htidy', hcursor, hversion⟩ := hstands
    obtain rfl : held = rows := Except.ok.inj (hheld.symm.trans hrows)
    exact ⟨htidy', version, held, hheld, htidy', rfl, hversion⟩

/-- What buckets have issued is not committed from then on to a ledger of their folder. -/
theorem CommitsAt.ne_of_issued (hgenuine : Genuine (I := Storage.interface) Memory.answer [] turns)
    (hcommits : CommitsFrom clients turns start)
    (htidy : ∀ rows, s.heldBuckets portfolio (stored (turns.take start)) = .ok rows →
      Tidy portfolio rows)
    {m l : Nat} (hstart : start ≤ m) (hml : m ≤ l)
    (hrows : s.heldBuckets portfolio (stored (turns.take m)) = .ok rows) {t : Triple}
    (hportfolio : t.portfolio = portfolio)
    (hissued : Bucket.issued rows t.letter t.sequence = true) {client : Client} {triple : Triple}
    (h : CommitsAt clients turns l client triple) (hfolder : client.store.folder = s.folder) :
    triple ≠ t := by
  rintro rfl
  have hl : l < turns.length := by
    obtain ⟨u, -, -, -, -, hu, -⟩ := h
    exact (List.getElem?_eq_some_iff.mp hu).1
  obtain ⟨htidy', version, hstands⟩ :=
    standsAt_of_heldBuckets hgenuine hcommits htidy hstart (by omega) hrows
  obtain ⟨cursor, version', hstands', hle, -⟩ :=
    standsAt_take hgenuine hcommits hstart hml (by omega) hstands
  obtain ⟨c, hc, hclaim, -⟩ := h.standsAt hgenuine hfolder.symm hportfolio hstands'
  have hrank : rank triple.letter triple.sequence = c.rank := by
    rw [hc]
    rfl
  -- The claim would be taken at a cursor that it is behind.
  have hlt : c.rank < c.rank := calc
    c.rank = rank triple.letter triple.sequence := hrank.symm
    _ < (cursorOf rows).rank := htidy'.rank_lt_of_issued hissued
    _ ≤ cursor.rank := hle
    _ ≤ c.rank := (rank_lt_after hclaim).1
  exact Nat.lt_irrefl _ hlt

/-- What a turn has got of a ledger is what storage held. -/
theorem heldBuckets_of_get
    (hgenuine : Genuine (I := Storage.interface) Memory.answer [] turns) {process k : Nat}
    {data : ByteArray} {ledger : Store.Ledger}
    (hget : turns[k]? = some ⟨process, .get (s.path portfolio), .ok data⟩)
    (hdecode : LedgerStore.decode (s.path portfolio) portfolio data = .ok ledger) :
    s.heldBuckets portfolio (stored (turns.take k)) = .ok ledger.rows := by
  have hreply : (.ok data : Except Failure ByteArray) =
      (Memory.answer (.get (s.path portfolio)) (stored (turns.take k))).1 := hgenuine k _ hget
  unfold LedgerStore.heldBuckets
  cases hobject : (stored (turns.take k)).get? (s.path portfolio) with
  | none =>
    unfold Memory.answer at hreply
    simp only [hobject] at hreply
    exact absurd hreply (by simp)
  | some object =>
    rw [Storage.Memory.answer_get_fst hobject] at hreply
    rw [LedgerStore.held_of_some hobject, ← Except.ok.inj hreply, hdecode]
    rfl

end

end ReferenceMint
