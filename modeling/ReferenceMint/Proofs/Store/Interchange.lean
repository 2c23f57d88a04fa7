import ReferenceMint.Proofs.Store.DatabaseBook
import ReferenceMint.Proofs.Store.LedgerBook

/-!
# The bucket stores are interchangeable

The store on object storage and the one on a database follow the same book. So both of them have
issued exactly what they have replied to have been claimed (`buckets_issue_what_was_claimed`), and
both reply alike to the same calls (`stores_reply_alike`).

Settings have capacities below a billion, so every claimed sequence is below the index that is
written for it. This fails at the highest number of thirty-two bits only, which has no successor:
the last sequence of a letter under this capacity is never recorded as issued, and that of `Z` is
claimed again and again. Both stores do so alike. The store on object storage writes a new version
for each of these claims, and versions have sixty-four bits with a sign.
-/

namespace ReferenceMint.Store

open Numeral (limit64)

/-- Two claims fill the letter `A` of a new portfolio at capacity two, a caller that comes late has
its claim refused, and a look at the buckets ends it. -/
def rollover : List Call :=
  [.claim ⟨7⟩ .start 2, .claim ⟨7⟩ ⟨.first, 2⟩ 2, .claim ⟨7⟩ ⟨.first, 2⟩ 2, .buckets ⟨7⟩]

/-- Whatever is claimed from whichever portfolios, in any order and at capacities that may change
from claim to claim: the buckets have issued exactly the sequences that were claimed. Under each
letter these are the numbers from one up to the one before the index. -/
theorem buckets_issue_what_was_claimed (folder : Option String) (clock : Nat → Timestamp)
    {calls : List Call} (h : ∀ c ∈ calls, c.IsBounded) :
    IssuesWhatWasClaimed (LedgerStore.serve folder clock) calls .empty ∧
      IssuesWhatWasClaimed SharedDatabase.answer calls .fresh := by
  constructor
  · exact (LedgerStore.follows_serve folder clock).issues h (LedgerStore.keeps_empty folder)
  · exact SharedDatabase.follows_answer.issues h SharedDatabase.keeps_fresh

/-- The late claim leaves no trace in either store. -/
theorem buckets_issue_what_was_claimed_rollover :
    claimsFrom ⟨7⟩ (converse SharedDatabase.answer rollover .fresh).1 =
        [⟨.first, 1, .stays⟩, ⟨.first, 2, .opens ⟨1⟩⟩] ∧
      IssuesWhatWasClaimed (LedgerStore.serve none fun _ => .epoch) rollover .empty ∧
      IssuesWhatWasClaimed SharedDatabase.answer rollover .fresh := by
  refine ⟨by decide, ?_⟩
  exact buckets_issue_what_was_claimed none (fun _ => .epoch) (by decide)

/-- What is needed for both stores to answer calls from the book. -/
structure Book.Ready (calls : List Call) (b : Book) : Prop where
  /-- The buckets are tidy. -/
  tidy : b.AllTidy
  /-- Claims are for portfolios that the table admits. -/
  numbered : ∀ c ∈ calls, c.IsNumbered
  /-- Versions stay within sixty-four bits: there are too few calls to get further, or too few
  sequences to claim. -/
  fits : (∀ portfolio, (b.claims portfolio).length + calls.length ≤ limit64 + 1) ∨
    (b.HasHistory ∧ ∀ c ∈ calls, c.IsBounded)

namespace Book.Ready

variable {c : Call} {calls : List Call} {b : Book}

/-- There is a version for one more claim. -/
theorem length_claims_le (h : Ready (c :: calls) b) (portfolio : PortfolioCode) :
    (b.claims portfolio).length ≤ limit64 := by
  rcases h.fits with hfew | ⟨hhistory, -⟩
  · have hlength := hfew portfolio
    rw [List.length_cons] at hlength
    omega
  · exact hhistory.fits.length_claims_le portfolio

/-- After a call the book is ready for the other calls. -/
theorem answer (h : Ready (c :: calls) b) : Ready calls (b.answer c).2 := by
  refine ⟨h.tidy.answer c, fun d hd => h.numbered d (by simp [hd]), ?_⟩
  rcases h.fits with hfew | ⟨hhistory, hbounded⟩
  · left
    intro portfolio
    have hlength := hfew portfolio
    have hone := b.length_claims_answer_le c portfolio
    rw [List.length_cons] at hlength
    omega
  · exact .inr ⟨hhistory.answer (hbounded c (by simp)), fun d hd => hbounded d (by simp [hd])⟩

end Book.Ready

/-- A new store on object storage and one on a new database reply alike to the same calls, whatever
cursors the claims expect and whatever their capacities are, as long as versions stay within
sixty-four bits: there are at most `2 ^ 63` calls, or no claim has the highest capacity. -/
theorem stores_reply_alike (folder : Option String) (clock : Nat → Timestamp) {calls : List Call}
    (hnumbered : ∀ c ∈ calls, c.IsNumbered)
    (hversions : calls.length ≤ 2 ^ 63 ∨ ∀ c ∈ calls, c.IsBounded) :
    (converse (LedgerStore.serve folder clock) calls .empty).1 =
      (converse SharedDatabase.answer calls .fresh).1 := by
  have hready : Book.Ready calls .empty := by
    refine ⟨fun portfolio => tidy_nil portfolio, hnumbered, hversions.imp (fun hfew portfolio => ?_)
      fun hbounded => ⟨fun _ => History.nil, hbounded⟩⟩
    have hnone : (Book.empty.claims portfolio).length = 0 := rfl
    have hlimit : limit64 = 2 ^ 63 - 1 := Numeral.highest_eq 2 63
    omega
  -- Each store replies as the book does, one call after the other.
  have hledgers : (converse (LedgerStore.serve folder clock) calls .empty).1 =
      (converse Book.answer calls .empty).1 := by
    refine converse_eq_book (fun c rest shelf b hready hkeeps => ?_) calls hready
      (LedgerStore.keeps_empty folder)
    obtain ⟨hreply, hafter⟩ := hkeeps.serve hready.tidy hready.length_claims_le clock c
    exact ⟨hreply, hafter, hready.answer⟩
  have hdatabase : (converse SharedDatabase.answer calls .fresh).1 =
      (converse Book.answer calls .empty).1 := by
    refine converse_eq_book (fun c rest s b hready hkeeps => ?_) calls hready
      SharedDatabase.keeps_fresh
    obtain ⟨hreply, hafter⟩ := hkeeps.answer hready.tidy (hready.numbered c (by simp))
    exact ⟨hreply, hafter, hready.answer⟩
  rw [hledgers, hdatabase]

/-- The late claim is refused by both stores, and both show the two buckets. -/
theorem stores_reply_alike_rollover :
    (converse (LedgerStore.serve none fun _ => .epoch) rollover .empty).1 =
      [⟨.claim ⟨7⟩ .start 2, .ok (.claimed ⟨7⟩ ⟨.first, 1, .stays⟩)⟩,
        ⟨.claim ⟨7⟩ ⟨.first, 2⟩ 2, .ok (.claimed ⟨7⟩ ⟨.first, 2, .opens ⟨1⟩⟩)⟩,
        ⟨.claim ⟨7⟩ ⟨.first, 2⟩ 2, .ok (.conflict (some ⟨⟨1⟩, 1⟩))⟩,
        ⟨.buckets ⟨7⟩, .ok [⟨⟨7⟩, .first, 3⟩, ⟨⟨7⟩, ⟨1⟩, 1⟩]⟩] :=
  (stores_reply_alike none (fun _ => .epoch) (by decide) (.inl (by decide))).trans rfl

end ReferenceMint.Store
