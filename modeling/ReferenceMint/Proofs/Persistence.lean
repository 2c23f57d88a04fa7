import ReferenceMint.Proofs.Asking
import ReferenceMint.Proofs.Store.LedgerStore

/-!
# What is written is read back

Values survive their JSON form (`Json.Survives`) if each of them is read back from the text that it
is written as. A text that is read and written again then does not change any more.

Ledgers are what object storage keeps as such texts. Whatever storage replies, all that a claim
writes is ledgers of its portfolio, each under the path that it is read from
(`LedgerStore.asks_claim`). A store that is given the bytes of a ledger reads the whole ledger, with
its rows in order (`LedgerStore.result_read_of_bytes`). So no claim leaves a ledger behind that the
next one cannot read. `values_survive` says this of every kind of values, together with the ledgers.
-/

namespace ReferenceMint

/-- Values survive their JSON form. -/
structure Json.Survives {α : Type} (ofJson? : Json → Option α) (toJson : α → Json) : Prop where
  /-- Each value is read back from the text that it is written as. -/
  decodes : ∀ value, (Json.ofText? (toJson value).compact).bind ofJson? = some value
  /-- A text that was read and written again is not changed by reading and writing it once more. -/
  settles : ∀ text written, recode ofJson? toJson text = some written →
    recode ofJson? toJson written = some written

/-- Values with plain JSON forms, from which they are read back, survive these. -/
theorem Json.Survives.of_plain {α : Type} {ofJson? : Json → Option α} {toJson : α → Json}
    (hread : ∀ value, ofJson? (toJson value) = some value)
    (hplain : ∀ value, (toJson value).Plain) : Json.Survives ofJson? toJson := by
  have hdecodes : ∀ value, (Json.ofText? (toJson value).compact).bind ofJson? = some value := by
    intro value
    rw [Json.ofText?_compact (hplain value), Option.bind_some, hread]
  refine ⟨hdecodes, fun text written hwritten => ?_⟩
  -- What was written is the text of a value.
  obtain ⟨value, -, rfl⟩ := Option.map_eq_some_iff.mp hwritten
  unfold recode
  rw [hdecodes, Option.map_some]

namespace Store.LedgerStore

open Storage (Memory.answer ObjectInfo Objects rewritten stored token writesTo)

/-- A call that writes nothing but a ledger of the portfolio, with a claim written into it, under
the path of the portfolio's ledger. -/
def PutsLedger (s : LedgerStore) (portfolio : PortfolioCode) : Storage.Call → Prop
  | .put path data _ => path = s.path portfolio ∧
      ∃ ledger c, ledger.portfolio = portfolio ∧ data = (Ledger.record ledger c s.clock).bytes
  | _ => True

/-- What a store on object storage writes is what it reads. -/
structure KeepsLedgers (s : LedgerStore) : Prop where
  /-- Whatever storage replies, all that a claim writes is ledgers of its portfolio, under the path
  of the portfolio's ledger. -/
  writes : ∀ portfolio expected capacity,
    (s.claim portfolio expected capacity).Asks (s.PutsLedger portfolio)
  /-- Whatever answers for storage: where it has the bytes of a ledger under the path, the ledger is
  read, with the version that was told. -/
  reads : ∀ {σ : Type} (answer : (c : Storage.Call) → σ → Storage.Reply c × σ) (state : σ)
    (ledger : Ledger) (info : ObjectInfo),
    (answer (.head (s.path ledger.portfolio)) state).1 = .ok (some info) →
    (answer (.get (s.path ledger.portfolio))
      (answer (.head (s.path ledger.portfolio)) state).2).1 = .ok ledger.bytes →
    ((s.read ledger.portfolio).run (I := Storage.interface) answer state).result =
      .ok (ledger, some info.version)
  /-- A claim that is taken leaves the ledger that was read before it, with the claim written into
  it: this is what any store with the folder reads afterwards. -/
  claims : ∀ portfolio expected capacity (objects : Objects) owner c,
    ((s.claim portfolio expected capacity).run Memory.answer objects).result =
      .ok (.claimed owner c) →
    ∃ ledger version, ledger.portfolio = portfolio ∧
      ((s.read portfolio).run Memory.answer objects).result = .ok (ledger, version) ∧
      ∀ reader : LedgerStore, reader.folder = s.folder → ∃ now,
        ((reader.read portfolio).run Memory.answer
          ((s.claim portfolio expected capacity).run Memory.answer objects).state).result =
          .ok (ledger.record c s.clock, some now)
  /-- After any turns of any processes, the ledger that was written last is the one that is read. -/
  lasts : ∀ turns, Genuine (I := Storage.interface) Memory.answer [] turns →
    ∀ (ledger : Ledger) write, (writesTo (s.path ledger.portfolio) turns).getLast? = some write →
    write.data = ledger.bytes → ∃ now,
      ((s.read ledger.portfolio).run Memory.answer (stored turns)).result =
        .ok (ledger, some now)

/-- Reading a portfolio's ledger writes nothing. -/
theorem asks_read (s : LedgerStore) (portfolio : PortfolioCode) :
    (s.read portfolio).Asks (s.PutsLedger portfolio) := by
  unfold read
  refine ⟨trivial, fun told => ?_⟩
  rcases told with failure | _ | info
  · trivial
  · trivial
  · refine ⟨trivial, fun data => ?_⟩
    cases data <;> trivial

/-- What is read for a portfolio is a ledger of the portfolio, whatever storage replies. -/
theorem ends_read (s : LedgerStore) (portfolio : PortfolioCode) :
    (s.read portfolio).Ends fun result =>
      ∀ ledger version, result = .ok (ledger, version) → ledger.portfolio = portfolio := by
  unfold read
  intro told
  rcases told with failure | _ | info
  · exact fun ledger version h => absurd h (by simp)
  · -- An absent ledger is the empty one of the portfolio.
    intro ledger version h
    rw [← (Prod.mk.inj (Except.ok.inj h)).1]
    rfl
  · intro data
    rcases data with failure | data
    · exact fun ledger version h => absurd h (by simp)
    · intro ledger version h
      cases hdecode : decode (s.path portfolio) portfolio data with
      | error failure => simp [hdecode, Except.map] at h
      | ok decoded =>
        simp only [hdecode, Except.map] at h
        rw [← (Prod.mk.inj (Except.ok.inj h)).1]
        exact portfolio_of_decode hdecode

/-- All that a claim writes is ledgers of its portfolio, under the path of the portfolio's
ledger. -/
theorem asks_claim (s : LedgerStore) (portfolio : PortfolioCode) (expected : Cursor)
    (capacity : UInt32) : (s.claim portfolio expected capacity).Asks (s.PutsLedger portfolio) := by
  refine (s.asks_read portfolio).bind_ends (s.ends_read portfolio) fun result howner => ?_
  rcases result with failure | ⟨ledger, version⟩
  · trivial
  · simp only
    split
    · trivial
    · split
      · trivial
      · refine ⟨⟨rfl, ledger, _, howner ledger version rfl, rfl⟩, fun reply => ?_⟩
        -- Nothing is asked for after the put.
        rcases reply with failure | version | current <;> trivial

/-- A store that is given the bytes of a ledger reads the ledger. -/
theorem result_read_of_bytes {σ : Type}
    (answer : (c : Storage.Call) → σ → Storage.Reply c × σ) {state : σ} {ledger : Ledger}
    {info : ObjectInfo} (s : LedgerStore)
    (hhead : (answer (.head (s.path ledger.portfolio)) state).1 = .ok (some info))
    (hget : (answer (.get (s.path ledger.portfolio))
      (answer (.head (s.path ledger.portfolio)) state).2).1 = .ok ledger.bytes) :
    ((s.read ledger.portfolio).run (I := Storage.interface) answer state).result =
      .ok (ledger, some info.version) := by
  rw [Program.result_run]
  unfold read
  simp only [Program.value, Storage.interface, hhead, hget, decode_bytes, Except.map]

/-- Storage in memory that has the bytes of a ledger under its path gives the ledger. -/
theorem exists_result_read {objects : Objects} {object : Storage.Object} {ledger : Ledger}
    (s : LedgerStore) (hobject : objects.get? (s.path ledger.portfolio) = some object)
    (hdata : object.data = ledger.bytes) : ∃ now,
      ((s.read ledger.portfolio).run Memory.answer objects).result = .ok (ledger, some now) := by
  refine ⟨Storage.token object.version, ?_⟩
  rw [Program.result_run, value_read, held_of_some hobject, hdata, decode_bytes, hobject]
  rfl

/-- A claim that is taken has written itself into the ledger that storage held. -/
theorem held_of_claimed {s : LedgerStore} {portfolio owner : PortfolioCode} {expected : Cursor}
    {capacity : UInt32} {objects : Objects} {c : Claim}
    (h : ((s.claim portfolio expected capacity).value Memory.answer objects).1 =
      .ok (.claimed owner c)) :
    ∃ ledger, s.held portfolio objects = .ok ledger ∧
      ((s.claim portfolio expected capacity).value Memory.answer objects).2 =
        objects.set (s.path portfolio)
          (rewritten (objects.get? (s.path portfolio)) (ledger.record c s.clock).bytes) := by
  rw [value_claim_eq] at h ⊢
  cases hheld : s.held portfolio objects with
  | error failure => simp [hheld] at h
  | ok ledger =>
    cases hactive : ledger.active with
    | error failure => simp [hheld, hactive] at h
    | ok active =>
      cases hplan : plan (active.getD .start) expected capacity with
      | error outcome =>
        simp only [hheld, hactive, hplan] at h
        have hrefused := isClaimed_of_plan hplan
        rw [Except.ok.inj h] at hrefused
        exact absurd hrefused (by simp [ClaimReply.isClaimed])
      | ok taken =>
        simp only [hheld, hactive, hplan] at h ⊢
        split_ifs at h ⊢
        · obtain ⟨-, rfl⟩ := ClaimReply.claimed.inj (Except.ok.inj h)
          exact ⟨ledger, rfl, rfl⟩
        · simp at h

/-- What a store on object storage writes is what it reads. -/
theorem keepsLedgers (s : LedgerStore) : s.KeepsLedgers where
  writes := s.asks_claim
  reads answer state ledger info hhead hget := s.result_read_of_bytes answer hhead hget
  claims portfolio expected capacity objects owner c hclaimed := by
    rw [Program.result_run] at hclaimed
    obtain ⟨ledger, hheld, hafter⟩ := held_of_claimed hclaimed
    have howner : ledger.portfolio = portfolio := portfolio_of_held hheld
    have hread : ((s.read portfolio).run Memory.answer objects).result =
        .ok (ledger, (objects.get? (s.path portfolio)).map fun object => token object.version) := by
      rw [Program.result_run, value_read, hheld]
      rfl
    refine ⟨ledger, _, howner, hread, fun reader hfolder => ?_⟩
    have hnext : (ledger.record c s.clock).portfolio = portfolio := howner
    rw [Program.state_run, hafter, ← path_eq_of_folder hfolder, ← hnext]
    exact reader.exists_result_read (objects.get?_set_self _ _) rfl
  lasts turns hgenuine ledger write hwrite hdata := by
    have hstored :=
      Storage.get?_stored_eq hgenuine (s.path ledger.portfolio) turns.length (Nat.le_refl _)
    rw [List.take_length, hwrite] at hstored
    exact s.exists_result_read hstored hdata

end Store.LedgerStore

/-- Letters, cursors, buckets, triples, portfolio codes, portfolios, legacy records, configurations
and kinds of errors survive their JSON forms, whatever numbers and texts they hold and whether or
not they have what they may lack. The ledgers that claims write are read back, on every storage. -/
theorem values_survive :
    Json.Survives Letter.ofJson? Letter.toJson ∧
    Json.Survives Cursor.ofJson? Cursor.toJson ∧
    Json.Survives Bucket.ofJson? Bucket.toJson ∧
    Json.Survives Triple.ofJson? Triple.toJson ∧
    Json.Survives PortfolioCode.ofJson? PortfolioCode.toJson ∧
    Json.Survives Portfolio.ofJson? Portfolio.toJson ∧
    Json.Survives LegacyRecord.ofJson? LegacyRecord.toJson ∧
    Json.Survives Configuration.ofJson? Configuration.toJson ∧
    Json.Survives AllocationError.Kind.ofJson? AllocationError.Kind.toJson ∧
    ∀ s : Store.LedgerStore, s.KeepsLedgers :=
  ⟨.of_plain Letter.ofJson?_toJson Letter.plain_toJson,
    .of_plain Cursor.ofJson?_toJson Cursor.plain_toJson,
    .of_plain Bucket.ofJson?_toJson Bucket.plain_toJson,
    .of_plain Triple.ofJson?_toJson Triple.plain_toJson,
    .of_plain PortfolioCode.ofJson?_toJson PortfolioCode.plain_toJson,
    .of_plain Portfolio.ofJson?_toJson Portfolio.plain_toJson,
    .of_plain LegacyRecord.ofJson?_toJson LegacyRecord.plain_toJson,
    .of_plain Configuration.ofJson?_toJson Configuration.plain_toJson,
    .of_plain AllocationError.Kind.ofJson?_toJson AllocationError.Kind.plain_toJson,
    Store.LedgerStore.keepsLedgers⟩

/-- A record that is written as an array, with escapes that have shorter forms and a reference that
is null, is written as an object, and that does not change any more. The ledger of the first claim
is read back. -/
theorem values_survive_escapes :
    (recode LegacyRecord.ofJson? LegacyRecord.toJson "[\"\\u0009\\u0022\\\\\",null]" =
        some "\x7b\"id\":\"\\t\\\"\\\\\"\x7d" ∧
      recode LegacyRecord.ofJson? LegacyRecord.toJson "\x7b\"id\":\"\\t\\\"\\\\\"\x7d" =
        some "\x7b\"id\":\"\\t\\\"\\\\\"\x7d") ∧
    ∃ now, (((Store.LedgerStore.mk none .epoch).read ⟨7⟩).run Storage.Memory.answer
        (((Store.LedgerStore.mk none .epoch).claim ⟨7⟩ .start 5).run
          Storage.Memory.answer []).state).result =
      .ok (⟨⟨7⟩, [⟨⟨7⟩, .first, 2⟩], .epoch⟩, some now) := by
  obtain ⟨-, -, -, -, -, -, hrecords, -, -, hledgers⟩ := values_survive
  constructor
  · have hwritten : recode LegacyRecord.ofJson? LegacyRecord.toJson
        "[\"\\u0009\\u0022\\\\\",null]" = some "\x7b\"id\":\"\\t\\\"\\\\\"\x7d" := by decide +kernel
    exact ⟨hwritten, hrecords.settles _ _ hwritten⟩
  · obtain ⟨ledger, version, -, hbefore, hafter⟩ :=
      (hledgers ⟨none, .epoch⟩).claims ⟨7⟩ .start 5 [] ⟨7⟩ ⟨.first, 1, .stays⟩ rfl
    -- Before the first claim there is no ledger.
    obtain ⟨rfl, -⟩ := Prod.mk.inj (Except.ok.inj hbefore)
    exact hafter ⟨none, .epoch⟩ rfl

end ReferenceMint
