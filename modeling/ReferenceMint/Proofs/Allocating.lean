import ReferenceMint.Proofs.Arrival
import ReferenceMint.Proofs.Attempts
import ReferenceMint.Proofs.Standing

/-!
# Runs of allocations

Clients allocate through stores on one object storage, each with settings of its own. Every write of
a client commits a claim of the client (`commitsFrom_allocating`), and a client with a result has
ended in one of the ways in which allocations end (`ends_of_allocated`).
-/

namespace ReferenceMint

open Storage (Memory.answer)
open Store (LedgerStore)

/-- What the client does on storage to allocate a sequence. -/
def Client.allocation (client : Client) :
    Program Storage.interface (Except AllocationError Allocation) :=
  client.store.program (client.settings.allocate client.code)

/-- All turns on storage if clients allocate under a schedule after the earlier calls of somebody
else, and what is left of the clients. -/
def allocating (clients : List Client) (earlier : List Storage.Call) (schedule : List Nat) :
    List (Turn Storage.interface) ×
      Crowd Storage.interface (Except AllocationError Allocation) Storage.Objects :=
  runAfter Client.allocation clients earlier schedule

section

variable {clients : List Client} {earlier : List Storage.Call} {schedule : List Nat}

/-- An allocation takes a sequence. -/
theorem taking_allocation : Taking Client.allocation fun _ => LedgerStore.allocates :=
  fun client _ _ h => LedgerStore.allocate_obeys client.settings client.code h

/-- The turns of a run of allocations are genuine. -/
theorem genuine_allocating (clients : List Client) (earlier : List Storage.Call)
    (schedule : List Nat) :
    Genuine (I := Storage.interface) Memory.answer [] (allocating clients earlier schedule).1 :=
  genuine_runAfter Client.allocation clients earlier schedule

/-- Every write of a client commits a claim of the client. -/
theorem commitsFrom_allocating (clients : List Client) (earlier : List Storage.Call)
    (schedule : List Nat) : CommitsFrom clients (allocating clients earlier schedule).1
      (turnsBefore clients earlier).length :=
  taking_allocation.commitsFrom clients earlier schedule

/-- A client with a result has ended in one of the ways in which allocations end. -/
theorem ends_of_allocated {i : Nat} {client : Client} {result : Except AllocationError Allocation}
    (hclient : clients[i]? = some client)
    (hresult : (allocating clients earlier schedule).2.result? i = some result) :
    ∃ now, now <+: (allocating clients earlier schedule).1 ∧
      client.store.RequestEnds i client.settings client.code LedgerStore.allocatesAs
        (turnsBefore clients earlier) result now := by
  have hobeys : ∀ (client : Client) i, clients[i]? = some client →
      client.allocation.Obeys Memory.answer [] i
        (.ending (client.store.RequestEnds i client.settings client.code LedgerStore.allocatesAs
          (turnsBefore clients earlier)))
        (turnsBefore clients earlier) :=
    fun client i _ => LedgerStore.allocate_ends client.settings client.code
  unfold allocating at hresult
  obtain ⟨now, later, hturns, -, hends⟩ := ended_runAfter hobeys hclient hresult
  exact ⟨now, ⟨later, hturns.symm⟩, hends⟩

/-- A client with an allocation has committed its triple, for the portfolio that it asked for. -/
theorem committed_of_allocated {i : Nat} {client : Client} {a : Allocation}
    (hclient : clients[i]? = some client)
    (hresult : (allocating clients earlier schedule).2.result? i = some (.ok a)) :
    client.settings.check client.code = .ok a.triple.portfolio ∧
    ∃ k t, (allocating clients earlier schedule).1[k]? = some t ∧ t.process = i ∧
      CommitsAt clients (allocating clients earlier schedule).1 k client a.triple := by
  obtain ⟨k, t, portfolio, c, ht, hi, hallocates, hcommit⟩ :=
    taking_allocation.of_result hclient hresult
  obtain ⟨now, -, ⟨_, -, hfailed, -⟩ | ⟨owner, hcheck, hends⟩⟩ := ends_of_allocated hclient hresult
  · exact absurd hfailed (by simp)
  · obtain ⟨_, _, d, tries, -, -, -, -, rfl⟩ := hends
    refine ⟨hcheck, k, t, ht, hi, ?_⟩
    rw [hallocates]
    exact hcommit

end

/-- The two clients that race for the portfolio seven, and a third one like the second. -/
def threeClients : List Client := racingClients ++ racingClients.drop 1

end ReferenceMint
