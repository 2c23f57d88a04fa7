import ReferenceMint.Proofs.Store.Contention

/-!
# No update of a ledger is lost

Claims on stores over one object storage interleave in any order, under any capacities. The writes
to one path are the versions of a ledger. Each of them is the version before with one claim written
into it, namely the claim that the version before gives for the capacity of the writer, and the
writer has this claim as its result (`no_lost_update`).

So a run has the same history as the claims that took effect have one after the other, each on its
own, in the order of their writes: the results are the same, and so is what storage holds after each
of them.
-/

namespace ReferenceMint

open Storage (Memory.answer Objects Write rewritten stored stored_take_succ token writes writesTo)
open Store (ClaimReply LedgerStore)

/-- A claim that somebody wants to make. -/
structure ClaimRequest where
  store : LedgerStore
  portfolio : PortfolioCode
  expected : Cursor
  capacity : UInt32

namespace ClaimRequest

/-- What the claim does on storage. -/
def program (r : ClaimRequest) : Program Storage.interface (Except Failure ClaimReply) :=
  r.store.claim r.portfolio r.expected r.capacity

/-- The path of the ledger that is claimed from. -/
def path (r : ClaimRequest) : String := r.store.path r.portfolio

/-- The write commits the claim that is wanted. -/
def CommittedBy (r : ClaimRequest) (objects : Objects) (write : Write) (c : Claim) : Prop :=
  r.store.Commits r.portfolio r.expected r.capacity objects write c

end ClaimRequest

/-- The turns that claims take under a schedule on storage without objects, and what is left of
them. -/
def claiming (requests : List ClaimRequest) (schedule : List Nat) :
    List (Turn Storage.interface) ×
      Crowd Storage.interface (Except Failure ClaimReply) Objects :=
  Crowd.run (I := Storage.interface) Memory.answer schedule
    ⟨requests.map ClaimRequest.program, []⟩

/-- The bytes under a path at a version: those of the write that made the version; at version zero
there are none. -/
def contentAt (path : String) (turns : List (Turn Storage.interface)) : (version : Nat) →
    Option ByteArray
  | 0 => none
  | version + 1 => (writesTo path turns)[version]?.map Write.data

/-- The results of claims that are made one after the other, each on its own, and what storage holds
afterwards. -/
def oneByOne : List ClaimRequest → Objects → List (Except Failure ClaimReply) × Objects
  | [], objects => ([], objects)
  | r :: rest, objects =>
    let outcome := r.program.run Memory.answer objects
    let (results, objects) := oneByOne rest outcome.state
    (outcome.result :: results, objects)

/-- The claims that took effect, in the order of their writes. -/
def successful (requests : List ClaimRequest) (turns : List (Turn Storage.interface)) :
    List ClaimRequest :=
  (writes turns).filterMap fun write => requests[write.process]?

/-! ## What each claim has done -/

/-- Under every schedule every claim is at its stage. -/
theorem staged_claiming (requests : List ClaimRequest) (schedule : List Nat) :
    Crowd.Staged (I := Storage.interface) Memory.answer [] requests
      (fun r process => r.store.claimingStage process r.portfolio r.expected r.capacity)
      (claiming requests schedule).1 (claiming requests schedule).2 := by
  apply Crowd.staged_run
  · intro r process
    exact LedgerStore.claimingStage_steady
  · intro r process
    exact LedgerStore.claim_obeys (by simp [LedgerStore.Silent])

section

variable {requests : List ClaimRequest} {schedule : List Nat}

/-- A claim that took effect has made one write, which committed it. -/
theorem committed_of_claimed {i : Nat} {r : ClaimRequest} {portfolio : PortfolioCode} {c : Claim}
    (hr : requests[i]? = some r)
    (hresult : (claiming requests schedule).2.result? i = some (.ok (.claimed portfolio c))) :
    portfolio = r.portfolio ∧ r.store.Committed i r.portfolio r.expected r.capacity c
      (claiming requests schedule).1 := by
  have hstage := (staged_claiming requests schedule).stage i r hr
  rw [hresult] at hstage
  exact hstage

/-- Every write was made by a claim that took effect. -/
theorem claimed_of_write {k : Nat} {t : Turn Storage.interface} {write : Write}
    (ht : (claiming requests schedule).1[k]? = some t) (hwrite : Write.ofTurn? t = some write) :
    ∃ r c, requests[t.process]? = some r ∧
      (claiming requests schedule).2.result? t.process = some (.ok (.claimed r.portfolio c)) ∧
      r.CommittedBy (stored ((claiming requests schedule).1.take k)) write c := by
  have hstaged := staged_claiming requests schedule
  obtain ⟨r, hr⟩ := hstaged.present t (List.mem_of_getElem? ht)
  have hstage := hstaged.stage _ r hr
  unfold LedgerStore.claimingStage at hstage
  split at hstage
  · rename_i owner c hdone
    obtain ⟨rfl, hcommitted⟩ := hstage
    exact ⟨r, c, hr, hdone, hcommitted.commits ht rfl hwrite⟩
  · exact absurd hwrite (hstage.not_write ht rfl)

end

/-! ## The versions of a ledger -/

/-- When a version of a ledger has been written and the next has not, storage holds this version. -/
theorem get?_stored_of_version {turns : List (Turn Storage.interface)} {path : String} {v k : Nat}
    (hgenuine : Genuine (I := Storage.interface) Memory.answer [] turns)
    (hv : v ≤ (writesTo path turns).length) (hk : k ≤ turns.length)
    (htake : writesTo path (turns.take k) = (writesTo path turns).take v) :
    (stored (turns.take k)).get? path =
      (contentAt path turns v).map fun data => ⟨data, v⟩ := by
  rw [Storage.get?_stored_eq hgenuine path k hk, htake]
  cases v with
  | zero => rfl
  | succ v =>
    -- The last of the first `v + 1` writes is the one that made the version.
    have hlast : ((writesTo path turns).take (v + 1)).getLast? = (writesTo path turns)[v]? := by
      rw [List.getLast?_take]
      simp [List.getElem?_eq_getElem hv]
    have hlength : ((writesTo path turns).take (v + 1)).length = v + 1 := by
      rw [List.length_take]
      omega
    rw [hlast, hlength]
    unfold contentAt
    rw [Option.map_map]
    rfl

/-! ## One after the other -/

/-- One more claim at the end. -/
theorem oneByOne_concat (rs : List ClaimRequest) (r : ClaimRequest) (objects : Objects) :
    oneByOne (rs ++ [r]) objects =
      ((oneByOne rs objects).1 ++ [(r.program.run Memory.answer (oneByOne rs objects).2).result],
        (r.program.run Memory.answer (oneByOne rs objects).2).state) := by
  induction rs generalizing objects with
  | nil => rfl
  | cons first rs ih =>
    rw [List.cons_append]
    unfold oneByOne
    simp only [ih, List.cons_append]

/-- A claim that is run on its own where a write committed it has the same effect as the write. -/
theorem run_of_committedBy {r : ClaimRequest} {objects : Objects} {write : Write} {c : Claim}
    (h : r.CommittedBy objects write c) :
    (r.program.run Memory.answer objects).result = .ok (.claimed r.portfolio c) ∧
      (r.program.run Memory.answer objects).state = write.applied objects := by
  obtain ⟨ledger, htakes, hdata⟩ := h.taken
  have hvalue := LedgerStore.value_claim htakes
  rw [Program.result_run, Program.state_run]
  unfold ClaimRequest.program
  rw [hvalue]
  refine ⟨rfl, ?_⟩
  unfold Write.applied
  rw [h.path, hdata]

/-- The claims that took effect within some turns have the same results one after the other, and
lead to what the turns lead to. -/
theorem oneByOne_successful (requests : List ClaimRequest) (schedule : List Nat) (n : Nat)
    (hn : n ≤ (claiming requests schedule).1.length) :
    (oneByOne (successful requests ((claiming requests schedule).1.take n)) []).1.map some =
        (writes ((claiming requests schedule).1.take n)).map (fun write =>
          (claiming requests schedule).2.result? write.process) ∧
      (oneByOne (successful requests ((claiming requests schedule).1.take n)) []).2 =
        stored ((claiming requests schedule).1.take n) := by
  have hgenuine := (staged_claiming requests schedule).genuine
  induction n with
  | zero => exact ⟨rfl, rfl⟩
  | succ n ih =>
    obtain ⟨hresults, hstate⟩ := ih (by omega)
    have ht : (claiming requests schedule).1[n]? = some (claiming requests schedule).1[n] :=
      List.getElem?_eq_getElem (by omega)
    have hwrites := Storage.writes_take_succ ht
    unfold successful at hresults hstate ⊢
    rw [hwrites]
    rcases stored_take_succ hgenuine ht with ⟨hnone, hsame⟩ | ⟨write, hwrite, happlied⟩
    · rw [hnone, hsame]
      simpa using ⟨hresults, hstate⟩
    · -- The claim that wrote now comes last, and finds what the turns before have left.
      obtain ⟨r, c, hr, hresult, hcommitted⟩ := claimed_of_write ht hwrite
      rw [← Write.process_eq hwrite] at hr hresult
      obtain ⟨hdone, hafter⟩ := run_of_committedBy hcommitted
      rw [hwrite, Option.toList_some, List.filterMap_append, List.map_append]
      simp only [List.filterMap_cons, hr, List.filterMap_nil]
      rw [oneByOne_concat, hstate, hdone, hafter, happlied]
      refine ⟨?_, rfl⟩
      rw [List.map_append, hresults]
      simp [hresult]

/-! ## The history of a run -/

/-- No claim writes twice. -/
theorem nodup_process_writes (requests : List ClaimRequest) (schedule : List Nat) :
    ((writes (claiming requests schedule).1).map Write.process).Nodup := by
  unfold List.Nodup writes
  rw [List.pairwise_map, List.pairwise_filterMap, List.pairwise_iff_getElem]
  intro k l hk hl hkl first hfirst second hsecond hsame
  have htk := List.getElem?_eq_getElem hk
  have htl := List.getElem?_eq_getElem hl
  rw [Write.process_eq hfirst, Write.process_eq hsecond] at hsame
  obtain ⟨r, c, hr, hresult, -⟩ := claimed_of_write htk hfirst
  obtain ⟨-, hcommitted⟩ := committed_of_claimed hr hresult
  -- Both turns are the one in which the claim was committed.
  obtain ⟨place, _, _, -, -, -, -, honly⟩ := hcommitted.exists_turn
  have hkplace := honly k _ first htk rfl hfirst
  have hlplace := honly l _ second htl hsame.symm hsecond
  omega

/-- Each version of a ledger is the one before with the claim of its writer written into it. -/
theorem version_of_write {requests : List ClaimRequest} {schedule : List Nat} {path : String}
    {v : Nat} {write : Write}
    (hv : (writesTo path (claiming requests schedule).1)[v]? = some write) :
    ∃ r ledger active c, requests[write.process]? = some r ∧ r.path = path ∧
      r.store.ledgerIn r.portfolio (contentAt path (claiming requests schedule).1 v) =
        .ok ledger ∧ ledger.active = .ok active ∧ active.getD .start = r.expected ∧
      (active.getD .start).claim r.capacity = some c ∧
      write.data = (ledger.record c r.store.clock).bytes ∧ write.version = token (v + 1) ∧
      (claiming requests schedule).2.result? write.process =
        some (.ok (.claimed r.portfolio c)) := by
  have hgenuine := (staged_claiming requests schedule).genuine
  obtain ⟨k, t, ht, hwrite, hpath, htake⟩ := Storage.exists_turn_of_writesTo hv
  have hk : k < (claiming requests schedule).1.length := (List.getElem?_eq_some_iff.mp ht).1
  have hlt : v < (writesTo path (claiming requests schedule).1).length :=
    (List.getElem?_eq_some_iff.mp hv).1
  -- When the write was made, storage held version `v`.
  have hstored := get?_stored_of_version hgenuine (Nat.le_of_lt hlt) (Nat.le_of_lt hk) htake
  obtain ⟨r, c, hr, hresult, hcommitted⟩ := claimed_of_write ht hwrite
  rw [← Write.process_eq hwrite] at hr hresult
  obtain ⟨ledger, htakes, hdata⟩ := hcommitted.taken
  obtain ⟨active, hactive, hplan⟩ := htakes.planned
  obtain ⟨hexpected, hclaim⟩ := Store.plan_eq_ok hplan
  have hrpath : r.path = path := hcommitted.path.symm.trans hpath
  refine ⟨r, ledger, active, c, hr, hrpath, ?_, hactive, hexpected, hclaim, hdata, ?_, hresult⟩
  · -- What the claim was taken from is the content at version `v`.
    rw [← htakes.held]
    unfold LedgerStore.held
    have hpath' : r.store.path r.portfolio = path := hrpath
    have hdata : (Storage.Object.data ∘ fun data => ⟨data, v⟩) = id := rfl
    rw [hpath', hstored, Option.map_map, hdata, Option.map_id, id]
  · rw [hcommitted.version, hpath, hstored]
    cases v with
    | zero => rfl
    | succ v =>
      have hcontent : contentAt path (claiming requests schedule).1 (v + 1) =
          (writesTo path (claiming requests schedule).1)[v]?.map Write.data := rfl
      rw [hcontent, List.getElem?_eq_getElem (Nat.lt_of_succ_lt hlt)]
      rfl

/-- No update of a ledger is lost. Whatever claims are made on storage without objects, under
whatever capacities, and however their calls interleave:

* the write that makes the next version of a ledger writes the claim into it that the version before
  gives for the capacity of the writer, and the writer has this claim as its result;
* a claim that took effect has made a write, and none has made two;
* storage holds the last version of each ledger;
* the claims that took effect, made one after the other in the order of their writes, each on its
  own, have the same results, and after any number of turns they have led to what storage holds. -/
theorem no_lost_update (requests : List ClaimRequest) (schedule : List Nat) :
    (∀ path v write, (writesTo path (claiming requests schedule).1)[v]? = some write →
      ∃ r ledger active c, requests[write.process]? = some r ∧ r.path = path ∧
        r.store.ledgerIn r.portfolio (contentAt path (claiming requests schedule).1 v) =
          .ok ledger ∧ ledger.active = .ok active ∧ active.getD .start = r.expected ∧
        (active.getD .start).claim r.capacity = some c ∧
        write.data = (ledger.record c r.store.clock).bytes ∧ write.version = token (v + 1) ∧
        (claiming requests schedule).2.result? write.process =
          some (.ok (.claimed r.portfolio c))) ∧
    (∀ (i : Nat) portfolio c,
      (claiming requests schedule).2.result? i = some (.ok (.claimed portfolio c)) →
      ∃ write ∈ writes (claiming requests schedule).1, write.process = i) ∧
    ((writes (claiming requests schedule).1).map Write.process).Nodup ∧
    (∀ path, (claiming requests schedule).2.state.get? path =
      (contentAt path (claiming requests schedule).1
        (writesTo path (claiming requests schedule).1).length).map fun data =>
          ⟨data, (writesTo path (claiming requests schedule).1).length⟩) ∧
    ∀ n ≤ (claiming requests schedule).1.length,
      (oneByOne (successful requests ((claiming requests schedule).1.take n)) []).1.map some =
        (writes ((claiming requests schedule).1.take n)).map (fun write =>
          (claiming requests schedule).2.result? write.process) ∧
      (oneByOne (successful requests ((claiming requests schedule).1.take n)) []).2 =
        stored ((claiming requests schedule).1.take n) := by
  have hstaged := staged_claiming requests schedule
  refine ⟨fun path v write hv => version_of_write hv, ?_,
    nodup_process_writes requests schedule, ?_, oneByOne_successful requests schedule⟩
  · intro i portfolio c hresult
    obtain ⟨r, hr⟩ := hstaged.staffed i _ hresult
    obtain ⟨-, hcommitted⟩ := committed_of_claimed hr hresult
    obtain ⟨k, t, write, ht, rfl, hwrite, -, -⟩ := hcommitted.exists_turn
    refine ⟨write, ?_, Write.process_eq hwrite⟩
    exact List.mem_filterMap.mpr ⟨t, List.mem_of_getElem? ht, hwrite⟩
  · intro path
    have htake : writesTo path ((claiming requests schedule).1.take
          (claiming requests schedule).1.length) =
        (writesTo path (claiming requests schedule).1).take
          (writesTo path (claiming requests schedule).1).length := by
      rw [List.take_length, List.take_length]
    have hlast := get?_stored_of_version hstaged.genuine (Nat.le_refl _) (Nat.le_refl _) htake
    rw [List.take_length] at hlast
    rw [hstaged.state]
    exact hlast

/-- Two claims of the first sequence of a portfolio, and one of the second. -/
def racingRequests : List ClaimRequest :=
  [⟨⟨none, .epoch⟩, ⟨7⟩, .start, 2⟩, ⟨⟨none, .epoch⟩, ⟨7⟩, .start, 2⟩,
    ⟨⟨none, .epoch⟩, ⟨7⟩, ⟨.first, 2⟩, 2⟩]

/-- The claims that race both see no ledger, and one of them loses. The third claim is made
afterwards, and it has made a write. -/
theorem no_lost_update_race :
    (claiming racingRequests [0, 1, 0, 1, 2, 2, 2]).2.result? 0 =
        some (.ok (.claimed ⟨7⟩ ⟨.first, 1, .stays⟩)) ∧
      (claiming racingRequests [0, 1, 0, 1, 2, 2, 2]).2.result? 1 = some (.ok (.conflict none)) ∧
      (claiming racingRequests [0, 1, 0, 1, 2, 2, 2]).2.result? 2 =
        some (.ok (.claimed ⟨7⟩ ⟨.first, 2, .opens ⟨1⟩⟩)) ∧
      ∃ write ∈ writes (claiming racingRequests [0, 1, 0, 1, 2, 2, 2]).1, write.process = 2 := by
  have hthird : (claiming racingRequests [0, 1, 0, 1, 2, 2, 2]).2.result? 2 =
      some (.ok (.claimed ⟨7⟩ ⟨.first, 2, .opens ⟨1⟩⟩)) := by decide +kernel
  refine ⟨by decide +kernel, by decide +kernel, hthird, ?_⟩
  exact (no_lost_update racingRequests [0, 1, 0, 1, 2, 2, 2]).2.1 2 _ _ hthird

end ReferenceMint
