import ReferenceMint.Proofs.Storage.Memory
import ReferenceMint.Proofs.Storage.Traced

/-!
# Traced storage is plain storage with visible faults

Traced storage decides on a write in its own way, and in between come its faults and its record.
Still it answers as plain storage does, but for the calls that its controls interfere with
(`Traced.interferes`). To such a call it replies with a failure that it made up, or it refuses a
write that plain storage would make (`Traced.Injected`), and no object changes
(`answer_of_interferes`). Any other call has the reply of plain storage and its effect
(`answer_of_not_interferes`).

So traced storage can be run beside plain storage that receives all the calls but those
(`Beside.after`). After any calls and controls both hold the same objects, and the changes in the
record are the writes that were answered as made (`plain_but_for_interference`).
-/

namespace ReferenceMint.Storage.Traced

/-! ## Interference -/

/-- Whether the controls make a call fail, or make it lose a race. A race can only be lost by a
conditional write whose demand holds. -/
def interferes (t : Traced) : Call → Bool
  | .head path => t.fails path
  | .get path => t.fails path || t.faults.reads
  | .put path _ demand => t.fails path || t.faults.writes ||
      (demand.holds (t.objects.get? path) && decide (demand ≠ .always) &&
        (decide (0 < t.racesToLose) || t.faults.races))

/-- The replies that are made up, where storage holds the objects. -/
inductive Injected (objects : Objects) : (c : Call) → Reply c → Prop
  /-- A head fails for its path. -/
  | head (path : String) : Injected objects (.head path) (.error (injectedFailure path))
  /-- A get fails for its path, or as all reads do. -/
  | get (path : String) (failure : Failure)
      (cause : failure = injectedFailure path ∨ failure = readFault path) :
      Injected objects (.get path) (.error failure)
  /-- A put fails for its path, or as all writes do. -/
  | put (path : String) (data : ByteArray) (demand : Precondition) (failure : Failure)
      (cause : failure = injectedFailure path ∨ failure = writeFault path) :
      Injected objects (.put path data demand) (.error failure)
  /-- A conditional put whose demand holds is refused with the version that stands. -/
  | race (path : String) (data : ByteArray) (demand : Precondition) (conditional : demand ≠ .always)
      (holds : demand.holds (objects.get? path) = true) :
      Injected objects (.put path data demand) (.ok (.refused (currentToken (objects.get? path))))

variable {t : Traced} {c : Call}

/-- A race is lost by a conditional write, as long as races are to be lost. -/
theorem loseRace_fst (t : Traced) (demand : Precondition) : (t.loseRace demand).1 =
    (decide (demand ≠ .always) && (decide (0 < t.racesToLose) || t.faults.races)) := by
  unfold loseRace
  split_ifs with halways hmore
  · simp [halways]
  · simp [halways, hmore]
  · simp [halways, hmore]

/-- A put that loses its race is refused with the version that stands. -/
theorem put_of_lost {path : String} {demand : Precondition} (data : ByteArray)
    (hholds : demand.holds (t.objects.get? path) = true) (hlost : (t.loseRace demand).1 = true) :
    t.put path data demand = (.refused (currentToken (t.objects.get? path)),
      (t.loseRace demand).2.recorded (.put path data.size demand false)) := by
  unfold put
  simp only [hholds, hlost, if_true]

/-- A put that loses no race has the result that it has in plain storage. -/
theorem put_of_not_lost {path : String} {demand : Precondition} (data : ByteArray)
    (h : demand.holds (t.objects.get? path) = true → (t.loseRace demand).1 = false) :
    (t.put path data demand).1 = (Memory.put t.objects path data demand).1 ∧
      (t.put path data demand).2.objects = (Memory.put t.objects path data demand).2 := by
  unfold put Memory.put
  by_cases hholds : demand.holds (t.objects.get? path) = true
  · have hlost := h hholds
    obtain ⟨hobjects, -⟩ := t.loseRace_snd demand
    simp [Memory.refusal?_eq, recorded, hholds, hlost, hobjects]
  · simp [Memory.refusal?_eq, recorded, hholds]

/-- A call that the controls interfere with has a reply that is made up, and changes no object. -/
theorem answer_of_interferes (h : t.interferes c = true) :
    Injected t.objects c (answer c t).1 ∧ (answer c t).2.objects = t.objects := by
  cases c with
  | head path =>
    have hfails : t.fails path = true := h
    unfold answer
    simp only [hfails, if_true]
    exact ⟨.head path, trivial⟩
  | get path =>
    simp only [interferes, Bool.or_eq_true] at h
    unfold answer
    dsimp only
    split_ifs with hfails hreads
    · exact ⟨.get path _ (.inl rfl), rfl⟩
    · exact ⟨.get path _ (.inr rfl), rfl⟩
    · exact absurd h (by simp [hfails, hreads])
  | put path data demand =>
    simp only [interferes, Bool.or_eq_true] at h
    unfold answer
    dsimp only
    split_ifs with hfails hwrites
    · exact ⟨.put path data demand _ (.inl rfl), rfl⟩
    · exact ⟨.put path data demand _ (.inr rfl), rfl⟩
    · -- Nothing makes the call fail, so a race is to be lost.
      simp only [hfails, hwrites, Bool.false_eq_true, false_or, Bool.and_eq_true,
        decide_eq_true_eq] at h
      obtain ⟨⟨hholds, hconditional⟩, hraces⟩ := h
      have hlost : (t.loseRace demand).1 = true := by
        rw [loseRace_fst]
        simpa [hconditional] using hraces
      rw [put_of_lost data hholds hlost]
      exact ⟨.race path data demand hconditional hholds, (t.loseRace_snd demand).1⟩

/-- A call that the controls do not interfere with has the reply and the effect that it has in plain
storage. -/
theorem answer_of_not_interferes (h : t.interferes c = false) :
    (answer c t).1 = (Memory.answer c t.objects).1 ∧
      (answer c t).2.objects = (Memory.answer c t.objects).2 := by
  cases c with
  | head path =>
    have hfails : t.fails path = false := h
    simp only [answer, hfails, Bool.false_eq_true, if_false]
    exact ⟨rfl, rfl⟩
  | get path =>
    simp only [interferes, Bool.or_eq_false_iff] at h
    simp only [answer, h.1, h.2, Bool.false_eq_true, if_false]
    rw [Memory.answer_get_snd]
    cases hobject : t.objects.get? path with
    | some object =>
      rw [Memory.answer_get_fst hobject]
      exact ⟨rfl, rfl⟩
    | none =>
      unfold Memory.answer
      simp only [hobject]
      exact ⟨rfl, rfl⟩
  | put path data demand =>
    simp only [interferes, Bool.or_eq_false_iff] at h
    obtain ⟨⟨hfails, hwrites⟩, hraces⟩ := h
    have hlost : demand.holds (t.objects.get? path) = true → (t.loseRace demand).1 = false := by
      intro hholds
      rw [loseRace_fst]
      simpa [hholds] using hraces
    obtain ⟨hresult, hobjects⟩ := put_of_not_lost data hlost
    simp only [answer, hfails, hwrites, Bool.false_eq_true, if_false]
    exact ⟨congrArg Except.ok hresult, hobjects⟩

/-! ## The record -/

/-- Whether the reply is that to a write that was made. -/
def isWritten : (c : Call) → Reply c → Bool
  | .put .., .ok (.written _) => true
  | _, _ => false

/-- What changes nothing leaves the number of recorded changes. -/
theorem Unchanged.changeCount {after : Traced} (h : Unchanged t after) :
    after.changeCount = t.changeCount := by
  obtain ⟨new, hnew, hnone⟩ := h.record
  unfold Traced.changeCount
  rw [hnew, List.countP_append, List.countP_eq_length_filter, hnone]
  simp

/-- What writes once adds one to the recorded changes. -/
theorem WroteOnce.changeCount {path : String} {data : ByteArray} {after : Traced}
    (h : WroteOnce path data t after) : after.changeCount = t.changeCount + 1 := by
  obtain ⟨new, demand, hnew, hone⟩ := h.record
  unfold Traced.changeCount
  rw [hnew, List.countP_append, List.countP_eq_length_filter, hone]
  simp [Nat.add_comm]

/-- The recorded changes go up by one with each call that is answered as a write that was made. -/
theorem changeCount_answer (c : Call) (t : Traced) : (answer c t).2.changeCount =
    t.changeCount + if isWritten c (answer c t).1 then 1 else 0 := by
  cases c with
  | head path => exact (answer_head t path).1.changeCount
  | get path => exact (answer_get t path).1.changeCount
  | put path data demand =>
    rcases answer_put t path data demand with ⟨version, hreply, hwrote⟩ |
      ⟨hsame, ⟨current, hreply⟩ | ⟨failure, hreply, -⟩⟩
    · rw [hwrote.changeCount, hreply]
      rfl
    · rw [hsame.changeCount, hreply]
      rfl
    · rw [hsame.changeCount, hreply]
      rfl

/-! ## Side by side -/

/-- What is done to traced storage. -/
inductive Step where
  /-- A call. -/
  | call (c : Call)
  /-- A control is used. -/
  | control (x : Control)

/-- Traced storage with plain storage beside it. -/
structure Beside where
  traced : Traced
  /-- What plain storage holds. -/
  plain : Objects
  /-- How many writes were answered as made since the record was last cleared. -/
  written : Nat

namespace Beside

/-- Both storages before the first call. -/
def start : Beside := ⟨.empty, [], 0⟩

/-- Plain storage receives the calls that traced storage does not interfere with. -/
def step (b : Beside) : Step → Beside
  | .call c => {
      traced := (answer c b.traced).2
      plain := if b.traced.interferes c then b.plain else (Memory.answer c b.plain).2
      written := b.written + if isWritten c (answer c b.traced).1 then 1 else 0 }
  | .control x => {
      traced := b.traced.control x
      plain := b.plain
      written := if x = .clearRecord then 0 else b.written }

/-- Both storages after calls and controls. -/
def after (steps : List Step) : Beside := steps.foldl step start

/-- A call has a reply that is made up and changes no object, or it has the reply of plain
storage. -/
def Accords (b : Beside) (c : Call) : Prop :=
  (b.traced.interferes c = true ∧ Injected b.plain c (answer c b.traced).1 ∧
    (answer c b.traced).2.objects = b.traced.objects) ∨
  (b.traced.interferes c = false ∧ (answer c b.traced).1 = (Memory.answer c b.plain).1)

/-- Both storages hold the same objects, and the record has the changes that were answered as
made. -/
structure Matched (b : Beside) : Prop where
  /-- The objects are the same. -/
  objects : b.traced.objects = b.plain
  /-- The recorded changes are the writes that were answered as made. -/
  changes : b.traced.changeCount = b.written

variable {b : Beside}

/-- While both hold the same objects, a call accords with plain storage. -/
theorem Matched.accords (h : b.Matched) (c : Call) : b.Accords c := by
  unfold Accords
  rw [← h.objects]
  cases hinterferes : b.traced.interferes c with
  | true => exact .inl ⟨rfl, answer_of_interferes hinterferes⟩
  | false => exact .inr ⟨rfl, (answer_of_not_interferes hinterferes).1⟩

/-- A step leaves both with the same objects. -/
theorem Matched.step (h : b.Matched) (x : Step) : (b.step x).Matched := by
  cases x with
  | call c =>
    refine ⟨?_, ?_⟩
    · show (answer c b.traced).2.objects =
        if b.traced.interferes c then b.plain else (Memory.answer c b.plain).2
      rw [← h.objects]
      cases hinterferes : b.traced.interferes c with
      | true => exact (answer_of_interferes hinterferes).2
      | false => exact (answer_of_not_interferes hinterferes).2
    · show (answer c b.traced).2.changeCount = b.written + _
      rw [← h.changes]
      exact changeCount_answer c b.traced
  | control x =>
    -- No control touches the objects, and only one touches the record.
    cases x with
    | clearRecord => exact ⟨h.objects, rfl⟩
    | failPaths start => exact ⟨h.objects, h.changes⟩
    | healPaths => exact ⟨h.objects, h.changes⟩
    | loseRaces count => exact ⟨h.objects, h.changes⟩
    | setFaults faults => exact ⟨h.objects, h.changes⟩

/-- After any steps both hold the same objects. -/
theorem matched_after (steps : List Step) : (after steps).Matched := by
  induction steps using List.reverseRecOn with
  | nil => exact ⟨rfl, rfl⟩
  | append_singleton steps x ih =>
    have hlast : after (steps ++ [x]) = (after steps).step x := List.foldl_append
    rw [hlast]
    exact ih.step x

end Beside

end ReferenceMint.Storage.Traced
