import ReferenceMint.Proofs.Standing

/-!
# Clients that find storage in use

Clients with stores on one object storage each run a program, and their calls on storage interleave
in any order. Storage need not be empty at first: it is as calls of somebody else have left it,
which come before all turns of the clients (`runAfter`).

A stage that a program keeps to from the turns before, whatever others do, is that of the client
with the program under every schedule (`stagedAfter_runAfter`), and so a client with a result has
come to the end of its program (`ended_runAfter`). A client whose program takes a sequence has
committed the claim of its result, and has written nothing without one (`Taking.of_result`,
`Taking.of_write`).
-/

namespace ReferenceMint

open Storage (Memory.answer Write stored)
open Store (LedgerStore tripleOf)
open Store.LedgerStore (Silent)

/-- The turns of somebody who comes before the clients and makes calls on storage. -/
def turnsBefore (clients : List Client) (earlier : List Storage.Call) :
    List (Turn Storage.interface) :=
  turnsOf Memory.answer clients.length earlier []

/-- All turns on storage if clients run programs under a schedule after the earlier calls of
somebody else, and what is left of the clients. -/
def runAfter {α : Type} (program : Client → Program Storage.interface α) (clients : List Client)
    (earlier : List Storage.Call) (schedule : List Nat) :
    List (Turn Storage.interface) × Crowd Storage.interface α Storage.Objects :=
  let run := Crowd.run (I := Storage.interface) Memory.answer schedule
    ⟨clients.map program, stored (turnsBefore clients earlier)⟩
  (turnsBefore clients earlier ++ run.1, run.2)

section

variable {clients : List Client} {earlier : List Storage.Call} {i : Nat} {client : Client}

/-- The turns before are genuine. -/
theorem genuine_turnsBefore (clients : List Client) (earlier : List Storage.Call) :
    Genuine (I := Storage.interface) Memory.answer [] (turnsBefore clients earlier) :=
  genuine_turnsOf (I := Storage.interface) clients.length earlier

/-- The turns before are none of a client's. -/
theorem others_turnsBefore (h : clients[i]? = some client) :
    Others i (turnsBefore clients earlier) := by
  intro t ht
  rw [process_of_mem_turnsOf ht]
  exact Nat.ne_of_gt (List.getElem?_eq_some_iff.mp h).1

variable {α : Type} {program : Client → Program Storage.interface α} {schedule : List Nat}

/-- All turns begin with those before. -/
theorem turnsBefore_prefix (program : Client → Program Storage.interface α) (clients : List Client)
    (earlier : List Storage.Call) (schedule : List Nat) :
    turnsBefore clients earlier <+: (runAfter program clients earlier schedule).1 :=
  List.prefix_append _ _

/-- If the schedule goes on, the turns go on from those that there were. -/
theorem runAfter_prefix (program : Client → Program Storage.interface α) (clients : List Client)
    (earlier : List Storage.Call) (schedule more : List Nat) :
    (runAfter program clients earlier schedule).1 <+:
      (runAfter program clients earlier (schedule ++ more)).1 := by
  unfold runAfter
  rw [Crowd.run_append]
  exact (List.prefix_append_right_inj _).mpr (List.prefix_append _ _)

/-- A turn of a client does not come before. -/
theorem length_turnsBefore_le {k : Nat} {t : Turn Storage.interface}
    (ht : (runAfter program clients earlier schedule).1[k]? = some t)
    (hclient : clients[t.process]? = some client) : (turnsBefore clients earlier).length ≤ k := by
  by_contra hlt
  unfold runAfter at ht
  rw [List.getElem?_append_left (Nat.lt_of_not_le hlt)] at ht
  exact others_turnsBefore hclient t (List.mem_of_getElem? ht) rfl

/-- Under every schedule every client is at the stage that its program keeps to. -/
theorem stagedAfter_runAfter {stage : Client → Nat → Stage Storage.interface α}
    (steady : ∀ client i, (stage client i).Steady i)
    (obeys : ∀ client i, clients[i]? = some client → (program client).Obeys Memory.answer [] i
      (stage client i) (turnsBefore clients earlier)) (schedule : List Nat) :
    Crowd.StagedAfter (I := Storage.interface) Memory.answer [] clients stage
      (turnsBefore clients earlier)
      (Crowd.run (I := Storage.interface) Memory.answer schedule
        ⟨clients.map program, stored (turnsBefore clients earlier)⟩).1
      (runAfter program clients earlier schedule).2 :=
  Crowd.staged_run_after steady (genuine_turnsBefore clients earlier) obeys schedule

/-- A client with a result has come to the end of its program, with turns of others afterwards. -/
theorem ended_runAfter {ends : Client → Nat → α → List (Turn Storage.interface) → Prop} {a : α}
    (obeys : ∀ client i, clients[i]? = some client → (program client).Obeys Memory.answer [] i
      (.ending (ends client i)) (turnsBefore clients earlier)) (hclient : clients[i]? = some client)
    (ha : (runAfter program clients earlier schedule).2.result? i = some a) :
    ∃ now later, (runAfter program clients earlier schedule).1 = now ++ later ∧ Others i later ∧
      ends client i a now := by
  have hstaged : Crowd.StagedAfter (I := Storage.interface) Memory.answer [] clients
      (fun client i => .ended i (ends client i)) (turnsBefore clients earlier)
      (Crowd.run (I := Storage.interface) Memory.answer schedule
        ⟨clients.map program, stored (turnsBefore clients earlier)⟩).1
      (runAfter program clients earlier schedule).2 :=
    stagedAfter_runAfter (fun _ _ => Stage.steady_ended)
      (fun client i h => (obeys client i h).ended) schedule
  have hstage := hstaged.stage i client hclient
  rw [ha] at hstage
  exact hstage

/-- The stage that says nothing. -/
theorem stagedAfter_trivial (program : Client → Program Storage.interface α)
    (clients : List Client) (earlier : List Storage.Call) (schedule : List Nat) :
    Crowd.StagedAfter (I := Storage.interface) Memory.answer [] clients (fun _ _ _ _ => True)
      (turnsBefore clients earlier)
      (Crowd.run (I := Storage.interface) Memory.answer schedule
        ⟨clients.map program, stored (turnsBefore clients earlier)⟩).1
      (runAfter program clients earlier schedule).2 := by
  apply stagedAfter_runAfter
  · intro client i result turns later _ _
    trivial
  · intro client i _
    exact Program.obeys_of_forall fun _ _ => trivial

/-- The turns of clients are genuine. -/
theorem genuine_runAfter (program : Client → Program Storage.interface α) (clients : List Client)
    (earlier : List Storage.Call) (schedule : List Nat) :
    Genuine (I := Storage.interface) Memory.answer []
      (runAfter program clients earlier schedule).1 :=
  (stagedAfter_trivial program clients earlier schedule).genuine

/-- A turn at a later place is among the later ones. -/
theorem mem_drop_of_getElem? {turns : List (Turn Storage.interface)} {k n : Nat}
    {t : Turn Storage.interface} (ht : turns[k]? = some t) (hn : n ≤ k) : t ∈ turns.drop n := by
  apply List.mem_of_getElem? (i := k - n)
  rw [List.getElem?_drop, Nat.add_sub_cancel' hn]
  exact ht

/-- A turn that does not come before is that of a client. -/
theorem exists_client_of_turn {t : Turn Storage.interface}
    (h : t ∈ (runAfter program clients earlier schedule).1.drop
      (turnsBefore clients earlier).length) : ∃ client, clients[t.process]? = some client := by
  unfold runAfter at h
  rw [List.drop_left] at h
  exact (stagedAfter_trivial program clients earlier schedule).present t h

end

/-! ## Clients that take sequences -/

/-- The program takes a sequence for its client: from turns on in which the client has written
nothing, it keeps to the stage of one that takes a sequence under the capacity. -/
def Taking {α : Type} (program : Client → Program Storage.interface (Except AllocationError α))
    (gives : Client → PortfolioCode → Claim → α → Prop) : Prop :=
  ∀ (client : Client) (i : Nat) turns, Silent i turns →
    (program client).Obeys Memory.answer [] i
      (client.store.takingStage i client.settings.capacity (gives client)) turns

namespace Taking

variable {α : Type} {program : Client → Program Storage.interface (Except AllocationError α)}
  {gives : Client → PortfolioCode → Claim → α → Prop} {clients : List Client}
  {earlier : List Storage.Call} {schedule : List Nat} {i : Nat} {client : Client}

/-- Under every schedule every client has written nothing, or has committed the claim of its
result. -/
theorem stage (h : Taking program gives) (earlier : List Storage.Call) (schedule : List Nat)
    (hclient : clients[i]? = some client) :
    client.store.takingStage i client.settings.capacity (gives client)
      ((runAfter program clients earlier schedule).2.result? i)
      (runAfter program clients earlier schedule).1 := by
  have hstaged : Crowd.StagedAfter (I := Storage.interface) Memory.answer [] clients
      (fun client i => client.store.takingStage i client.settings.capacity (gives client))
      (turnsBefore clients earlier)
      (Crowd.run (I := Storage.interface) Memory.answer schedule
        ⟨clients.map program, stored (turnsBefore clients earlier)⟩).1
      (runAfter program clients earlier schedule).2 := by
    apply stagedAfter_runAfter
    · intro client i
      exact LedgerStore.takingStage_steady
    · intro client i hclient
      apply h
      exact fun t ht hprocess => absurd hprocess (others_turnsBefore hclient t ht)
  exact hstaged.stage i client hclient

/-- A client that writes commits the claim of its result. -/
theorem of_write (h : Taking program gives) {k : Nat} {t : Turn Storage.interface} {write : Write}
    (hclient : clients[t.process]? = some client)
    (ht : (runAfter program clients earlier schedule).1[k]? = some t)
    (hwrite : Write.ofTurn? t = some write) :
    ∃ a portfolio c,
      (runAfter program clients earlier schedule).2.result? t.process = some (.ok a) ∧
      gives client portfolio c a ∧
      CommitsAt clients (runAfter program clients earlier schedule).1 k client
        (tripleOf portfolio c) := by
  have hstage := h.stage earlier schedule hclient
  generalize (runAfter program clients earlier schedule).2.result? t.process = result at hstage ⊢
  rcases result with _ | e | a
  · exact absurd hwrite (hstage.not_write ht rfl)
  · exact absurd hwrite (hstage.not_write ht rfl)
  · obtain ⟨portfolio, expected, c, hcommitted, hgives⟩ := hstage
    exact ⟨a, portfolio, c, rfl, hgives, t, write, portfolio, expected, c, ht, hwrite, hclient, rfl,
      hcommitted.commits ht rfl hwrite⟩

/-- Every write after the earlier calls commits a claim of a client. -/
theorem commitsFrom (h : Taking program gives) (clients : List Client)
    (earlier : List Storage.Call) (schedule : List Nat) :
    CommitsFrom clients (runAfter program clients earlier schedule).1
      (turnsBefore clients earlier).length := by
  intro k t write hk ht hwrite
  obtain ⟨client, hclient⟩ := exists_client_of_turn (mem_drop_of_getElem? ht hk)
  obtain ⟨_, portfolio, c, -, -, hcommit⟩ := h.of_write hclient ht hwrite
  exact ⟨client, tripleOf portfolio c, hcommit⟩

/-- A client with a result has committed the claim of the result. -/
theorem of_result (h : Taking program gives) {a : α} (hclient : clients[i]? = some client)
    (ha : (runAfter program clients earlier schedule).2.result? i = some (.ok a)) :
    ∃ k t portfolio c, (runAfter program clients earlier schedule).1[k]? = some t ∧ t.process = i ∧
      gives client portfolio c a ∧
      CommitsAt clients (runAfter program clients earlier schedule).1 k client
        (tripleOf portfolio c) := by
  have hstage := h.stage earlier schedule hclient
  rw [ha] at hstage
  obtain ⟨portfolio, expected, c, hcommitted, hgives⟩ := hstage
  obtain ⟨k, t, write, ht, rfl, hwrite, hcommits, -⟩ := hcommitted.exists_turn
  exact ⟨k, t, portfolio, c, ht, rfl, hgives, t, write, portfolio, expected, c, ht, hwrite, hclient,
    rfl, hcommits⟩

end Taking

end ReferenceMint
