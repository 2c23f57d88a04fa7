import ReferenceMint.Proofs.Storage.Memory
import ReferenceMint.Proofs.Store.Ledger
import ReferenceMint.Proofs.Store.Rows
import ReferenceMint.Store.LedgerStore

/-!
# What claims write into storage

`LedgerStore.held` is the ledger of a portfolio as storage holds it. A write commits a claim
(`LedgerStore.Commits`) if it replaces the ledger that storage holds by the same ledger with the
claim written into it, and the claim is the one that the held cursor gives. Storage then holds that
ledger (`Commits.held_applied`).

Run on its own, a claim makes the write that commits it, or changes nothing (`value_claim`). The one
thing that keeps it from writing, apart from the plan, is a version beyond sixty-four bits, which no
token can carry.
-/

namespace ReferenceMint.Store.LedgerStore

open Numeral (limit64)
open Storage (Memory.answer Objects Object Write rewritten token)

/-! ## Paths and stored ledgers -/

/-- What the folder adds in front of the name of a ledger. -/
def folderChars : Option String → List Char
  | some folder => folder.toList ++ ['/']
  | none => []

/-- Different folders add something different. -/
theorem folderChars_injective {folder other : Option String}
    (h : folderChars folder = folderChars other) : folder = other := by
  unfold folderChars at h
  cases folder with
  | none =>
    cases other with
    | none => rfl
    | some other => simp at h
  | some folder =>
    cases other with
    | none => simp at h
    | some other => rw [String.toList_inj.mp (List.append_cancel_right h)]

/-- The path of a ledger: the digits of the portfolio stand between what the folder determines and
the name of the file. -/
theorem toList_path (s : LedgerStore) (portfolio : PortfolioCode) :
    (s.path portfolio).toList = folderChars s.folder ++ "portfolio=".toList ++
      Numeral.digits portfolio.number.toNat ++ "/reference_buckets.json".toList := by
  unfold path folderChars PortfolioCode.text Numeral.text
  cases s.folder <;> simp

/-- A path belongs to the ledger of one portfolio in one folder. -/
theorem path_injective {s other : LedgerStore} {p q : PortfolioCode} (h : s.path p = other.path q) :
    s.folder = other.folder ∧ p = q := by
  have hchars := congrArg String.toList h
  rw [toList_path, toList_path] at hchars
  -- Read backwards, the digits of the portfolio end at the equals sign.
  have hcut : (Numeral.digits p.number.toNat).reverse ++
        (folderChars s.folder ++ "portfolio=".toList).reverse =
      (Numeral.digits q.number.toNat).reverse ++
        (folderChars other.folder ++ "portfolio=".toList).reverse := by
    rw [← List.reverse_append, ← List.reverse_append, List.append_cancel_right hchars]
  have hdigit : ∀ n, ∀ c ∈ (Numeral.digits n).reverse, c.isDigit = true := fun n c hc =>
    Numeral.isDigit_of_mem_digits (List.mem_reverse.mp hc)
  have hends : ∀ cs : List Char, Numeral.NoDigit (cs ++ "portfolio=".toList).reverse := by
    intro cs
    unfold Numeral.NoDigit
    rw [List.head?_reverse]
    simp
  have hdigits := congrArg (List.takeWhile Char.isDigit) hcut
  rw [Numeral.takeWhile_digits_append (hdigit _) (hends _),
    Numeral.takeWhile_digits_append (hdigit _) (hends _)] at hdigits
  rw [hdigits] at hcut
  have hfolder := List.reverse_injective (List.append_cancel_left hcut)
  have hnumber : p.number.toNat = q.number.toNat :=
    Numeral.digits_injective (List.reverse_injective hdigits)
  exact ⟨folderChars_injective (List.append_cancel_right hfolder),
    PortfolioCode.ext_number hnumber⟩

/-- Stores with the same folder keep the ledgers under the same paths. -/
theorem path_eq_of_folder {s other : LedgerStore} {portfolio : PortfolioCode}
    (h : s.folder = other.folder) : s.path portfolio = other.path portfolio := by
  unfold path
  rw [h]

/-- The bytes of a portfolio's ledger are decoded as the ledger. -/
theorem decode_bytes (path : String) (l : Ledger) : decode path l.portfolio l.bytes = .ok l := by
  unfold decode
  rw [Ledger.ofBytes?_bytes]
  simp

/-- What is decoded for a portfolio is a ledger of the portfolio. -/
theorem portfolio_of_decode {path : String} {portfolio : PortfolioCode} {data : ByteArray}
    {l : Ledger} (h : decode path portfolio data = .ok l) : l.portfolio = portfolio := by
  unfold decode at h
  cases hbytes : Ledger.ofBytes? data with
  | none => simp [hbytes] at h
  | some other =>
    simp only [hbytes] at h
    split_ifs at h with hportfolio
    exact Except.ok.inj h ▸ hportfolio

/-- The ledger of a portfolio in the bytes under its path; without bytes it is empty. -/
def ledgerIn (s : LedgerStore) (portfolio : PortfolioCode) : Option ByteArray →
    Except Failure Ledger
  | none => .ok (.empty portfolio s.clock)
  | some data => decode (s.path portfolio) portfolio data

/-- The ledger of a portfolio as storage holds it. -/
def held (s : LedgerStore) (portfolio : PortfolioCode) (objects : Objects) :
    Except Failure Ledger :=
  s.ledgerIn portfolio ((objects.get? (s.path portfolio)).map Object.data)

/-- An absent ledger is empty. -/
theorem held_of_none {s : LedgerStore} {portfolio : PortfolioCode} {objects : Objects}
    (h : objects.get? (s.path portfolio) = none) :
    s.held portfolio objects = .ok (.empty portfolio s.clock) := by
  unfold held
  rw [h]
  rfl

/-- A present ledger is decoded from its object. -/
theorem held_of_some {s : LedgerStore} {portfolio : PortfolioCode} {objects : Objects}
    {object : Object} (h : objects.get? (s.path portfolio) = some object) :
    s.held portfolio objects = decode (s.path portfolio) portfolio object.data := by
  unfold held
  rw [h]
  rfl

/-- The held ledger of a portfolio is the portfolio's. -/
theorem portfolio_of_held {s : LedgerStore} {portfolio : PortfolioCode} {objects : Objects}
    {l : Ledger} (h : s.held portfolio objects = .ok l) : l.portfolio = portfolio := by
  cases hobject : objects.get? (s.path portfolio) with
  | none =>
    rw [held_of_none hobject] at h
    rw [← Except.ok.inj h]
    rfl
  | some object =>
    rw [held_of_some hobject] at h
    exact portfolio_of_decode h

/-! ## Claims that are committed -/

/-- A claim is taken from a ledger that storage holds. -/
structure Takes (s : LedgerStore) (portfolio : PortfolioCode) (expected : Cursor)
    (capacity : UInt32) (objects : Objects) (ledger : Ledger) (c : Claim) : Prop where
  /-- Storage holds the ledger. -/
  held : s.held portfolio objects = .ok ledger
  /-- The claim is the one that the plan gives for the cursor of the ledger. -/
  planned : ∃ active, ledger.active = .ok active ∧
    plan (active.getD .start) expected capacity = .ok c
  /-- A token can carry the version. -/
  fits : ∀ object, objects.get? (s.path portfolio) = some object → object.version ≤ limit64

/-- A write commits a claim: it writes the claim into the ledger that storage holds. -/
structure Commits (s : LedgerStore) (portfolio : PortfolioCode) (expected : Cursor)
    (capacity : UInt32) (objects : Objects) (write : Write) (c : Claim) : Prop where
  /-- The write is to the ledger of the portfolio. -/
  path : write.path = s.path portfolio
  /-- The claim is taken from the ledger that storage holds, and written into it. -/
  taken : ∃ ledger, s.Takes portfolio expected capacity objects ledger c ∧
    write.data = (ledger.record c s.clock).bytes
  /-- The version goes up by one. -/
  version : write.version = token (rewritten (objects.get? write.path) write.data).version

variable {s : LedgerStore} {portfolio : PortfolioCode} {expected : Cursor} {capacity : UInt32}
  {objects : Objects}

/-- A ledger gives at most one claim at a capacity. -/
theorem Takes.claim_eq {expected' : Cursor} {ledger ledger' : Ledger} {c c' : Claim}
    (h : s.Takes portfolio expected capacity objects ledger c)
    (h' : s.Takes portfolio expected' capacity objects ledger' c') : c = c' := by
  obtain ⟨active, hactive, hplan⟩ := h.planned
  obtain ⟨active', hactive', hplan'⟩ := h'.planned
  obtain rfl : ledger = ledger' := Except.ok.inj (h.held.symm.trans h'.held)
  obtain rfl : active = active' := Except.ok.inj (hactive.symm.trans hactive')
  exact Option.some.inj ((plan_eq_ok hplan).2.symm.trans (plan_eq_ok hplan').2)

/-- The cursor of a ledger is never at zero. -/
theorem one_le_index_of_active {ledger : Ledger} {active : Option Cursor}
    (h : ledger.active = .ok active) : 1 ≤ (active.getD .start).index.toNat := by
  unfold Ledger.active Bucket.activeCursor at h
  cases hbucket : Bucket.active? ledger.rows with
  | none =>
    simp only [hbucket] at h
    rw [← Except.ok.inj h]
    exact Nat.le_refl 1
  | some b =>
    simp only [hbucket, Bucket.cursor] at h
    cases hcursor : Cursor.ofIndex b.letter b.index with
    | error failure =>
      rw [hcursor] at h
      exact absurd h (by simp [Except.map])
    | ok cursor =>
      rw [hcursor] at h
      rw [← Except.ok.inj h]
      exact Cursor.one_le_index_of_ofIndex hcursor

/-- A claim that is taken has a sequence from one up to the capacity. -/
theorem Takes.sequence_bounds {ledger : Ledger} {c : Claim}
    (h : s.Takes portfolio expected capacity objects ledger c) :
    1 ≤ c.sequence.toNat ∧ c.sequence.toNat ≤ max capacity.toNat 1 := by
  obtain ⟨active, hactive, hplan⟩ := h.planned
  exact sequence_bounds_of_plan (one_le_index_of_active hactive) hplan

/-- Storage holds a ledger of the portfolio that was written under its path. -/
theorem held_set {ledger : Ledger} {object : Object} (howner : ledger.portfolio = portfolio)
    (hdata : object.data = ledger.bytes) :
    s.held portfolio (objects.set (s.path portfolio) object) = .ok ledger := by
  subst howner
  rw [held_of_some (objects.get?_set_self _ _), hdata]
  exact decode_bytes _ _

/-- An object under another path makes no difference to a ledger. -/
theorem held_set_of_ne {path : String} (object : Object) (h : s.path portfolio ≠ path) :
    s.held portfolio (objects.set path object) = s.held portfolio objects := by
  unfold held
  rw [objects.get?_set_ne _ h]

/-- After a write that commits a claim, storage holds the ledger with the claim. -/
theorem Commits.held_applied {write : Write} {c : Claim} {ledger : Ledger}
    (h : s.Commits portfolio expected capacity objects write c)
    (hheld : s.held portfolio objects = .ok ledger) :
    s.held portfolio (write.applied objects) = .ok (ledger.record c s.clock) := by
  obtain ⟨other, htakes, hdata⟩ := h.taken
  obtain rfl : ledger = other := Except.ok.inj (hheld.symm.trans htakes.held)
  have howner : ledger.portfolio = portfolio := portfolio_of_held hheld
  have hrecorded : (ledger.record c s.clock).portfolio = portfolio := howner
  unfold Storage.Write.applied
  rw [h.path]
  exact held_set hrecorded hdata

/-- A write to another path leaves a ledger alone. -/
theorem held_applied_of_ne {write : Write} (h : s.path portfolio ≠ write.path) :
    s.held portfolio (write.applied objects) = s.held portfolio objects :=
  held_set_of_ne _ h

/-- The buckets of a portfolio as storage holds them. -/
def heldBuckets (s : LedgerStore) (portfolio : PortfolioCode) (objects : Objects) :
    Except Failure (List Bucket) :=
  (s.held portfolio objects).map Ledger.rows

/-- Stores with the same folder hold the same buckets. -/
theorem heldBuckets_eq_of_folder {other : LedgerStore} (h : s.folder = other.folder) :
    s.heldBuckets portfolio objects = other.heldBuckets portfolio objects := by
  have hpath : s.path portfolio = other.path portfolio := path_eq_of_folder h
  cases hobject : objects.get? (s.path portfolio) with
  | none =>
    unfold heldBuckets
    rw [held_of_none hobject, held_of_none (hpath ▸ hobject)]
    rfl
  | some object =>
    unfold heldBuckets
    rw [held_of_some hobject, held_of_some (hpath ▸ hobject), hpath]

/-- After a claim was written into a ledger, storage holds the buckets with the claim. -/
theorem heldBuckets_record {ledger : Ledger} (hheld : s.held portfolio objects = .ok ledger)
    (c : Claim) :
    s.heldBuckets portfolio (objects.set (s.path portfolio)
        (rewritten (objects.get? (s.path portfolio)) (ledger.record c s.clock).bytes)) =
      .ok (recorded portfolio ledger.rows c) := by
  have howner : ledger.portfolio = portfolio := portfolio_of_held hheld
  have hrecorded : (ledger.record c s.clock).portfolio = portfolio := howner
  unfold heldBuckets
  rw [held_set hrecorded rfl, ← howner]
  rfl

/-- A write that commits a claim takes it at the cursor of the buckets that storage holds, and
writes it into them. -/
theorem Commits.buckets {write : Write} {c : Claim}
    (h : s.Commits portfolio expected capacity objects write c) :
    ∃ rows active, s.heldBuckets portfolio objects = .ok rows ∧
      Bucket.activeCursor rows = .ok active ∧ (active.getD .start).claim capacity = some c ∧
      s.heldBuckets portfolio (write.applied objects) = .ok (recorded portfolio rows c) := by
  obtain ⟨ledger, htakes, -⟩ := h.taken
  obtain ⟨active, hactive, hplan⟩ := htakes.planned
  have howner : ledger.portfolio = portfolio := portfolio_of_held htakes.held
  refine ⟨ledger.rows, active, ?_, hactive, (plan_eq_ok hplan).2, ?_⟩
  · unfold heldBuckets
    rw [htakes.held]
    rfl
  · unfold heldBuckets
    rw [h.held_applied htakes.held, ← howner]
    rfl

/-- A write that commits a claim to tidy buckets takes it at their cursor, and writes it into
them. -/
theorem Commits.of_tidy {write : Write} {c : Claim} {rows : List Bucket}
    (h : s.Commits portfolio expected capacity objects write c)
    (hrows : s.heldBuckets portfolio objects = .ok rows) (htidy : Tidy portfolio rows) :
    (cursorOf rows).claim capacity = some c ∧
      s.heldBuckets portfolio (write.applied objects) = .ok (recorded portfolio rows c) := by
  obtain ⟨rows', active, hrows', hactive, hclaim, hafter⟩ := h.buckets
  obtain rfl : rows = rows' := Except.ok.inj (hrows.symm.trans hrows')
  have hcursor : active = lastCursor rows := Except.ok.inj (hactive.symm.trans htidy.activeCursor)
  rw [hcursor] at hclaim
  exact ⟨hclaim, hafter⟩

/-! ## Claims that run on their own -/

/-- Reading gives the ledger that storage holds, with the token of its version. -/
theorem value_read (s : LedgerStore) (portfolio : PortfolioCode) (objects : Objects) :
    (s.read portfolio).value Memory.answer objects =
      ((s.held portfolio objects).map fun ledger =>
        (ledger, (objects.get? (s.path portfolio)).map fun object => token object.version),
      objects) := by
  cases hobject : objects.get? (s.path portfolio) with
  | none =>
    rw [held_of_none hobject]
    simp [read, Program.value, Storage.interface, Memory.answer, hobject, Except.map]
  | some object =>
    rw [held_of_some hobject]
    simp [read, Program.value, Storage.interface, Memory.answer, hobject, Storage.Object.info]

/-- The cursor is that of the ledger that storage holds. -/
theorem value_active (s : LedgerStore) (portfolio : PortfolioCode) (objects : Objects) :
    (s.answer (.active portfolio)).value Memory.answer objects =
      ((s.held portfolio objects).bind Ledger.active, objects) := by
  unfold LedgerStore.answer Program.map
  rw [Program.value_bind Memory.answer (s.read portfolio), value_read]
  cases s.held portfolio objects <;> rfl

/-- The buckets are those that storage holds. -/
theorem value_buckets (s : LedgerStore) (portfolio : PortfolioCode) (objects : Objects) :
    (s.answer (.buckets portfolio)).value Memory.answer objects =
      (s.heldBuckets portfolio objects, objects) := by
  unfold LedgerStore.answer Program.map heldBuckets
  rw [Program.value_bind Memory.answer (s.read portfolio), value_read]
  cases s.held portfolio objects <;> rfl

/-- What a claim demands of the ledger it has read holds if nothing has changed, as long as a token
can carry the version. -/
theorem holds_demand_iff (current : Option Object) :
    (demand (current.map fun object => token object.version)).holds current = true ↔
      ∀ object, current = some object → object.version ≤ limit64 := by
  cases current with
  | none => simp [demand, Storage.holds_absent_iff]
  | some object => simp [demand, Storage.holds_version_iff]

/-- How often the ledger of a portfolio was written. -/
def timesWritten (s : LedgerStore) (portfolio : PortfolioCode) (objects : Objects) : Nat :=
  ((objects.get? (s.path portfolio)).map Object.version).getD 0

/-- A token can carry the version of a ledger, if there is one. -/
theorem timesWritten_le_iff {n : Nat} : s.timesWritten portfolio objects ≤ n ↔
    ∀ object, objects.get? (s.path portfolio) = some object → object.version ≤ n := by
  unfold timesWritten
  cases objects.get? (s.path portfolio) <;> simp

/-- Writing a claim into the ledger that storage holds, with nobody else around. It is refused if no
token carries the version. -/
theorem value_commit (s : LedgerStore) (portfolio : PortfolioCode) (ledger : Ledger) (c : Claim)
    (objects : Objects) :
    (s.commit portfolio ledger
        ((objects.get? (s.path portfolio)).map fun object => token object.version) c).value
        Memory.answer objects =
      if s.timesWritten portfolio objects ≤ limit64 then
        (.ok (.claimed portfolio c), objects.set (s.path portfolio)
          (rewritten (objects.get? (s.path portfolio)) (ledger.record c s.clock).bytes))
      else (.ok (.conflict none), objects) := by
  have hdemand := holds_demand_iff (objects.get? (s.path portfolio))
  rw [← timesWritten_le_iff] at hdemand
  split_ifs with hfits
  · have hput := Storage.Memory.answer_put_of_holds (ledger.record c s.clock).bytes
      (hdemand.mpr hfits)
    simp [commit, Program.value, Storage.interface, hput, Program.log]
  · have hput := Storage.Memory.answer_put_of_not_holds (ledger.record c s.clock).bytes
      (fun hholds => hfits (hdemand.mp hholds))
    simp [commit, Program.value, Storage.interface, hput, Program.log]

/-- What a claim gives and leaves, by the ledger that storage holds. -/
theorem value_claim_eq (s : LedgerStore) (portfolio : PortfolioCode) (expected : Cursor)
    (capacity : UInt32) (objects : Objects) :
    (s.claim portfolio expected capacity).value Memory.answer objects =
      match s.held portfolio objects with
      | .error failure => (.error failure, objects)
      | .ok ledger => match ledger.active with
        | .error failure => (.error failure, objects)
        | .ok active => match plan (active.getD .start) expected capacity with
          | .error outcome => (.ok outcome, objects)
          | .ok c =>
            if s.timesWritten portfolio objects ≤ limit64 then
              (.ok (.claimed portfolio c), objects.set (s.path portfolio)
                (rewritten (objects.get? (s.path portfolio)) (ledger.record c s.clock).bytes))
            else (.ok (.conflict none), objects) := by
  unfold claim
  rw [Program.value_bind Memory.answer (s.read portfolio), value_read]
  cases s.held portfolio objects with
  | error failure => rfl
  | ok ledger =>
    simp only [Except.map]
    cases ledger.active with
    | error failure => rfl
    | ok active =>
      simp only
      cases plan (active.getD .start) expected capacity with
      | error outcome => rfl
      | ok c => exact value_commit s portfolio ledger c objects

/-- A claim that can be taken is taken. -/
theorem value_claim {ledger : Ledger} {c : Claim}
    (h : s.Takes portfolio expected capacity objects ledger c) :
    (s.claim portfolio expected capacity).value Memory.answer objects =
      (.ok (.claimed portfolio c), objects.set (s.path portfolio)
        (rewritten (objects.get? (s.path portfolio)) (ledger.record c s.clock).bytes)) := by
  obtain ⟨active, hactive, hplan⟩ := h.planned
  have hfits := timesWritten_le_iff.mpr h.fits
  rw [value_claim_eq, h.held]
  simp only [hactive, hplan, hfits, if_true]

/-- A claim that is not taken because of the plan changes nothing. -/
theorem value_claim_of_plan {ledger : Ledger} {active : Option Cursor} {outcome : ClaimReply}
    (hheld : s.held portfolio objects = .ok ledger) (hactive : ledger.active = .ok active)
    (hplan : plan (active.getD .start) expected capacity = .error outcome) :
    (s.claim portfolio expected capacity).value Memory.answer objects = (.ok outcome, objects) := by
  rw [value_claim_eq, hheld]
  simp only [hactive, hplan]

end ReferenceMint.Store.LedgerStore
