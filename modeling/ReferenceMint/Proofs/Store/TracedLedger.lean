import ReferenceMint.Proofs.Storage.Interference
import ReferenceMint.Proofs.Store.LedgerStore

/-!
# A bucket store on traced storage

What a ledger store reads from traced storage depends on the objects and the faults alone
(`LedgerStore.found`). To read changes nothing but the record of calls
(`LedgerStore.value_read_found`), so a claim at the cursor that was read comes down to one put
(`LedgerStore.onTraced_claim`). The put fails as all writes do, or it is refused, be it for its
demand or for a race that is to be lost, or it writes the claim (`LedgerStore.value_commit_of_put`).
-/

namespace ReferenceMint.Storage.Traced

/-- Two states hold the same objects and fail the same calls. They may differ in their records, and
in how many races are still to be lost. -/
structure Alike (t u : Traced) : Prop where
  /-- The objects are the same. -/
  objects : u.objects = t.objects
  /-- The same paths fail. -/
  failing : u.failing = t.failing
  /-- The same faults are set. -/
  faults : u.faults = t.faults

namespace Alike

variable {t u v : Traced}

/-- A state is like itself. -/
theorem refl (t : Traced) : Alike t t := ⟨rfl, rfl, rfl⟩

/-- What is like a state is like those that the state is like. -/
theorem trans (h : Alike t u) (h' : Alike u v) : Alike t v :=
  ⟨h'.objects.trans h.objects, h'.failing.trans h.failing, h'.faults.trans h.faults⟩

/-- Alike states fail on the same paths. -/
theorem fails (h : Alike t u) (path : String) : u.fails path = t.fails path := by
  unfold Traced.fails
  rw [h.failing]

end Alike

variable {t : Traced} {path : String} {demand : Precondition}

/-- A put fails where all writes do. -/
theorem answer_put_of_writeFault (data : ByteArray) (demand : Precondition)
    (hfails : t.fails path = false) (hwrites : t.faults.writes = true) :
    answer (.put path data demand) t = (.error (writeFault path), t) := by
  simp only [answer, hfails, hwrites, Bool.false_eq_true, if_false, if_true]

/-- A put whose demand does not hold is refused, and uses up no race. -/
theorem answer_put_of_not_holds (data : ByteArray) (hfails : t.fails path = false)
    (hwrites : t.faults.writes = false) (hholds : demand.holds (t.objects.get? path) = false) :
    answer (.put path data demand) t = (.ok (.refused (currentToken (t.objects.get? path))),
      t.recorded (.put path data.size demand false)) := by
  simp only [answer, put, hfails, hwrites, hholds, Bool.false_eq_true, if_false]

/-- A put that loses its race is refused, and the race is used up if it was a forced one. -/
theorem answer_put_of_lost (data : ByteArray) (hfails : t.fails path = false)
    (hwrites : t.faults.writes = false) (hholds : demand.holds (t.objects.get? path) = true)
    (hlost : (t.loseRace demand).1 = true) :
    answer (.put path data demand) t = (.ok (.refused (currentToken (t.objects.get? path))),
      (t.loseRace demand).2.recorded (.put path data.size demand false)) := by
  simp only [answer, hfails, hwrites, Bool.false_eq_true, if_false, put_of_lost data hholds hlost]

/-- A put that loses no race is made. -/
theorem answer_put_of_not_lost (data : ByteArray) (hfails : t.fails path = false)
    (hwrites : t.faults.writes = false) (hholds : demand.holds (t.objects.get? path) = true)
    (hlost : (t.loseRace demand).1 = false) :
    answer (.put path data demand) t =
      (.ok (.written (token (rewritten (t.objects.get? path) data).version)),
        { (t.loseRace demand).2 with
          objects := t.objects.set path (rewritten (t.objects.get? path) data)
          record := .put path data.size demand true :: t.record }) := by
  obtain ⟨hobjects, hrecord⟩ := t.loseRace_snd demand
  simp only [answer, put, recorded, hfails, hwrites, hholds, hlost, hobjects, hrecord,
    Bool.false_eq_true, if_false, if_true]

/-- A lost race leaves a state that is like the one before. -/
theorem alike_loseRace (t : Traced) (demand : Precondition) : Alike t (t.loseRace demand).2 := by
  unfold loseRace
  split_ifs <;> exact ⟨rfl, rfl, rfl⟩

/-- A put fails as all writes do, or it is refused and changes no object, or it is made. -/
theorem answer_put_cases (hfails : t.fails path = false) (data : ByteArray)
    (demand : Precondition) :
    (t.faults.writes = true ∧ answer (.put path data demand) t = (.error (writeFault path), t)) ∨
    (∃ current u, answer (.put path data demand) t = (.ok (.refused current), u) ∧ Alike t u) ∨
    ∃ version u, answer (.put path data demand) t = (.ok (.written version), u) := by
  cases hwrites : t.faults.writes with
  | true => exact .inl ⟨rfl, answer_put_of_writeFault data demand hfails hwrites⟩
  | false =>
    right
    cases hholds : demand.holds (t.objects.get? path) with
    | false =>
      exact .inl ⟨_, _, answer_put_of_not_holds data hfails hwrites hholds, ⟨rfl, rfl, rfl⟩⟩
    | true =>
      cases hlost : (t.loseRace demand).1 with
      | true =>
        exact .inl ⟨_, _, answer_put_of_lost data hfails hwrites hholds hlost,
          (alike_loseRace t demand).trans ⟨rfl, rfl, rfl⟩⟩
      | false => exact .inr ⟨_, _, answer_put_of_not_lost data hfails hwrites hholds hlost⟩

end ReferenceMint.Storage.Traced

namespace ReferenceMint.Store.LedgerStore

open Storage (Traced token)
open Storage.Traced (Alike)

variable {s : LedgerStore} {portfolio : PortfolioCode} {t u : Traced}

/-- Answers a call on the bucket store from traced storage. -/
def onTraced (s : LedgerStore) (c : Call) (t : Traced) : Reply c × Traced :=
  (s.answer c).value Traced.answer t

/-- A program on the store gives on traced storage what it gives with these answers. -/
theorem value_program {α : Type} (s : LedgerStore) (p : Program interface α) (t : Traced) :
    (s.program p).value Traced.answer t = p.value s.onTraced t :=
  Program.value_lower s.answer Traced.answer p t

/-! ## Reading -/

/-- What reading a ledger gives. -/
def found (s : LedgerStore) (portfolio : PortfolioCode) (t : Traced) :
    Except Failure (Ledger × Option String) :=
  if t.fails (s.path portfolio) then .error (Traced.injectedFailure (s.path portfolio))
  else match t.objects.get? (s.path portfolio) with
    | none => .ok (.empty portfolio s.clock, none)
    | some object =>
      if t.faults.reads then .error (Traced.readFault (s.path portfolio))
      else (decode (s.path portfolio) portfolio object.data).map fun ledger =>
        (ledger, some (token object.version))

/-- From alike states the same is read. -/
theorem found_of_alike (h : Alike t u) : s.found portfolio u = s.found portfolio t := by
  unfold found
  rw [h.fails, h.objects, h.faults]

/-- Where a ledger is read, its path does not fail. -/
theorem fails_of_found {ledger : Ledger} {version : Option String}
    (h : s.found portfolio t = .ok (ledger, version)) : t.fails (s.path portfolio) = false := by
  cases hfails : t.fails (s.path portfolio) with
  | false => rfl
  | true =>
    unfold found at h
    rw [if_pos hfails] at h
    exact nomatch h

/-- Where nothing fails, the ledger that storage holds is read, with the token of its version. -/
theorem found_of_calm (hfails : t.fails (s.path portfolio) = false)
    (hreads : t.faults.reads = false) : s.found portfolio t =
      (s.held portfolio t.objects).map fun ledger =>
        (ledger, (t.objects.get? (s.path portfolio)).map fun object => token object.version) := by
  unfold found
  cases hobject : t.objects.get? (s.path portfolio) with
  | none =>
    rw [held_of_none hobject]
    simp only [hfails, Bool.false_eq_true, if_false]
    rfl
  | some object =>
    rw [held_of_some hobject]
    simp only [hfails, hreads, Bool.false_eq_true, if_false]
    rfl

/-- Reading changes nothing but the record. -/
theorem value_read_found (s : LedgerStore) (portfolio : PortfolioCode) (t : Traced) :
    ∃ record, (s.read portfolio).value Traced.answer t =
      (s.found portfolio t, { t with record }) := by
  unfold read found
  cases hfails : t.fails (s.path portfolio) with
  | true =>
    refine ⟨t.record, ?_⟩
    simp only [Program.value, Storage.interface, Traced.answer, hfails, if_true]
  | false =>
    cases hobject : t.objects.get? (s.path portfolio) with
    | none =>
      refine ⟨.head (s.path portfolio) :: t.record, ?_⟩
      simp only [Program.value, Storage.interface, Traced.answer, Traced.recorded, hfails, hobject,
        Option.map_none, Bool.false_eq_true, if_false]
    | some object =>
      -- The version is asked for first, and this is on record when the bytes are read.
      have hstill : Traced.fails { t with record := .head (s.path portfolio) :: t.record }
          (s.path portfolio) = false := hfails
      cases hreads : t.faults.reads with
      | true =>
        refine ⟨.head (s.path portfolio) :: t.record, ?_⟩
        simp only [Program.value, Storage.interface, Traced.answer, Traced.recorded, hfails, hstill,
          hobject, hreads, Option.map_some, Bool.false_eq_true, if_false, if_true]
      | false =>
        refine ⟨.get (s.path portfolio) :: .head (s.path portfolio) :: t.record, ?_⟩
        simp only [Program.value, Storage.interface, Traced.answer, Traced.recorded, hfails, hstill,
          hobject, hreads, Option.map_some, Storage.Object.info, Bool.false_eq_true, if_false]

/-- A question for the cursor. -/
theorem onTraced_active (s : LedgerStore) (portfolio : PortfolioCode) (t : Traced) :
    ∃ record, s.onTraced (.active portfolio) t =
      ((s.found portfolio t).bind fun (ledger, _) => ledger.active, { t with record }) := by
  obtain ⟨record, hread⟩ := s.value_read_found portfolio t
  refine ⟨record, ?_⟩
  unfold onTraced LedgerStore.answer Program.map
  rw [Program.value_bind Traced.answer (s.read portfolio), hread]
  rfl

/-- A question for the buckets. -/
theorem onTraced_buckets (s : LedgerStore) (portfolio : PortfolioCode) (t : Traced) :
    ∃ record, s.onTraced (.buckets portfolio) t =
      ((s.found portfolio t).map fun (ledger, _) => ledger.rows, { t with record }) := by
  obtain ⟨record, hread⟩ := s.value_read_found portfolio t
  refine ⟨record, ?_⟩
  unfold onTraced LedgerStore.answer Program.map
  rw [Program.value_bind Traced.answer (s.read portfolio), hread]
  rfl

/-! ## Claiming -/

variable {ledger : Ledger} {version : Option String} {active : Option Cursor} {expected : Cursor}
  {capacity : UInt32} {c : Claim}

/-- A claim that is planned is written into the ledger that was read. -/
theorem onTraced_claim (hfound : s.found portfolio t = .ok (ledger, version))
    (hactive : ledger.active = .ok active)
    (hplan : plan (active.getD .start) expected capacity = .ok c) :
    ∃ record, s.onTraced (.claim portfolio expected capacity) t =
      (s.commit portfolio ledger version c).value Traced.answer { t with record } := by
  obtain ⟨record, hread⟩ := s.value_read_found portfolio t
  refine ⟨record, ?_⟩
  show (s.claim portfolio expected capacity).value Traced.answer t = _
  unfold claim
  rw [Program.value_bind Traced.answer (s.read portfolio), hread, hfound]
  simp only [hactive, hplan]

/-- A claim that is not planned is answered as the plan says. -/
theorem onTraced_claim_of_error {outcome : ClaimReply}
    (hfound : s.found portfolio t = .ok (ledger, version)) (hactive : ledger.active = .ok active)
    (hplan : plan (active.getD .start) expected capacity = .error outcome) :
    ∃ record, s.onTraced (.claim portfolio expected capacity) t =
      (.ok outcome, { t with record }) := by
  obtain ⟨record, hread⟩ := s.value_read_found portfolio t
  refine ⟨record, ?_⟩
  show (s.claim portfolio expected capacity).value Traced.answer t = _
  unfold claim
  rw [Program.value_bind Traced.answer (s.read portfolio), hread, hfound]
  simp only [hactive, hplan]
  rfl

/-- What is replied to a claim, by what became of its put. -/
def replyTo (portfolio : PortfolioCode) (c : Claim) :
    Except Failure Storage.PutResult → Except Failure ClaimReply
  | .error failure => .error failure
  | .ok (.written _) => .ok (.claimed portfolio c)
  | .ok (.refused _) => .ok (.conflict none)

/-- To write a claim is to make one put. -/
theorem value_commit_of_put {result : Except Failure Storage.PutResult}
    (h : Traced.answer
      (.put (s.path portfolio) (ledger.record c s.clock).bytes (demand version)) t = (result, u)) :
    (s.commit portfolio ledger version c).value Traced.answer t =
      (replyTo portfolio c result, u) := by
  unfold commit
  -- The bytes are named, since they would be computed where puts are compared.
  generalize (ledger.record c s.clock).bytes = data at h ⊢
  simp only [Program.value, Storage.interface]
  simp only [h]
  rcases result with failure | written | refused <;> rfl

end ReferenceMint.Store.LedgerStore
