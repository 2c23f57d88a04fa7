import Mathlib.Tactic.Common
import ReferenceMint.Storage.Traced

/-!
# What calls on traced storage change

Whatever the controls are set to, a call on traced storage changes an object only if it is a put
that is answered as written, and then it is the one put in the record that was applied
(`answer_put`). All other calls leave the objects alone (`Unchanged`), those that fail included. No
failure of storage speaks of a portfolio code.
-/

namespace ReferenceMint.Storage.Traced

/-- Between two states no object was changed, and no call was recorded that changed one. -/
structure Unchanged (before after : Traced) : Prop where
  /-- The objects are the same. -/
  objects : after.objects = before.objects
  /-- The calls that were recorded in between changed none. -/
  record : ∃ new, after.record = new ++ before.record ∧ new.filter Operation.changesObject = []

/-- Between two states one put wrote the data under the path, and nothing else was changed. -/
structure WroteOnce (path : String) (data : ByteArray) (before after : Traced) : Prop where
  /-- The object under the path has the data, and the next version. -/
  objects : after.objects = before.objects.set path (rewritten (before.objects.get? path) data)
  /-- Of the calls that were recorded in between, one is a put that was applied. -/
  record : ∃ new demand, after.record = new ++ before.record ∧
    new.filter Operation.changesObject = [.put path data.size demand true]

variable {t first last : Traced} {path : String} {data : ByteArray}

/-- Without a call nothing is changed. -/
theorem Unchanged.refl (t : Traced) : Unchanged t t := ⟨rfl, [], rfl, rfl⟩

/-- What changes nothing, and then again, changes nothing. -/
theorem Unchanged.trans (h : Unchanged t first) (h' : Unchanged first last) : Unchanged t last := by
  obtain ⟨new, hnew, hnone⟩ := h.record
  obtain ⟨more, hmore, hnone'⟩ := h'.record
  refine ⟨h'.objects.trans h.objects, more ++ new, ?_, ?_⟩
  · rw [hmore, hnew, List.append_assoc]
  · rw [List.filter_append, hnone, hnone', List.append_nil]

/-- What writes once after nothing was changed writes once. -/
theorem Unchanged.wroteOnce (h : Unchanged t first) (h' : WroteOnce path data first last) :
    WroteOnce path data t last := by
  obtain ⟨new, hnew, hnone⟩ := h.record
  obtain ⟨more, demand, hmore, hone⟩ := h'.record
  refine ⟨?_, more ++ new, demand, ?_, ?_⟩
  · rw [h'.objects, h.objects]
  · rw [hmore, hnew, List.append_assoc]
  · rw [List.filter_append, hnone, hone, List.append_nil]

/-- Recording a call that changes no object changes nothing. -/
theorem unchanged_recorded {op : Operation} (h : op.changesObject = false) :
    Unchanged t (t.recorded op) := by
  refine ⟨rfl, [op], rfl, ?_⟩
  rw [List.filter_cons_of_neg (by simp [h]), List.filter_nil]

/-- A head changes nothing, and it is answered with what storage holds if it does not fail. -/
theorem answer_head (t : Traced) (path : String) :
    Unchanged t (answer (.head path) t).2 ∧
      ((answer (.head path) t).1 = .ok ((t.objects.get? path).map fun o => o.info path) ∨
        ∃ failure, (answer (.head path) t).1 = .error failure ∧ failure.kind ≠ .outOfRange) := by
  unfold answer
  dsimp only
  split_ifs with hfails
  · exact ⟨.refl t, .inr ⟨_, rfl, by simp [injectedFailure, Failure.kind]⟩⟩
  · exact ⟨unchanged_recorded rfl, .inl rfl⟩

/-- A get changes nothing, and it is answered with the bytes that storage holds if it does not
fail. -/
theorem answer_get (t : Traced) (path : String) :
    Unchanged t (answer (.get path) t).2 ∧
      ((∃ object, t.objects.get? path = some object ∧
          (answer (.get path) t).1 = .ok object.data) ∨
        ∃ failure, (answer (.get path) t).1 = .error failure ∧ failure.kind ≠ .outOfRange) := by
  unfold answer
  dsimp only
  split_ifs with hfails hreads
  · exact ⟨.refl t, .inr ⟨_, rfl, by simp [injectedFailure, Failure.kind]⟩⟩
  · exact ⟨.refl t, .inr ⟨_, rfl, by simp [readFault, Failure.kind]⟩⟩
  · cases hobject : t.objects.get? path with
    | some object => exact ⟨unchanged_recorded rfl, .inl ⟨object, rfl, rfl⟩⟩
    | none =>
      exact ⟨unchanged_recorded rfl, .inr ⟨_, rfl, by simp [missing, Failure.kind]⟩⟩

/-- Losing a race changes no object and no record. -/
theorem loseRace_snd (t : Traced) (demand : Precondition) :
    (t.loseRace demand).2.objects = t.objects ∧ (t.loseRace demand).2.record = t.record := by
  unfold loseRace
  split_ifs <;> exact ⟨rfl, rfl⟩

/-- A put that is answered as written has written once. Any other put changes nothing: one that was
refused, be it that its demand does not hold or that it was made to lose its race, and one that
failed. -/
theorem answer_put (t : Traced) (path : String) (data : ByteArray) (demand : Precondition) :
    (∃ version, (answer (.put path data demand) t).1 = .ok (.written version) ∧
        WroteOnce path data t (answer (.put path data demand) t).2) ∨
      (Unchanged t (answer (.put path data demand) t).2 ∧
        ((∃ current, (answer (.put path data demand) t).1 = .ok (.refused current)) ∨
          ∃ failure, (answer (.put path data demand) t).1 = .error failure ∧
            failure.kind ≠ .outOfRange)) := by
  unfold answer
  dsimp only
  split_ifs with hfails hwrites
  · exact .inr ⟨.refl t, .inr ⟨_, rfl, by simp [injectedFailure, Failure.kind]⟩⟩
  · exact .inr ⟨.refl t, .inr ⟨_, rfl, by simp [writeFault, Failure.kind]⟩⟩
  · unfold put
    by_cases hholds : demand.holds (t.objects.get? path) = true
    · obtain ⟨hobjects, hrecord⟩ := t.loseRace_snd demand
      simp only [hholds, if_true]
      cases hlost : (t.loseRace demand).1 with
      | true =>
        simp only [if_true]
        refine .inr ⟨⟨hobjects, [.put path data.size demand false], ?_, rfl⟩, .inl ⟨_, rfl⟩⟩
        show _ :: (t.loseRace demand).2.record = _
        rw [hrecord]
        rfl
      | false =>
        -- The race is not lost, so the put goes through to the objects.
        simp only [hobjects, Bool.false_eq_true, if_false]
        refine .inl ⟨_, rfl, rfl, [.put path data.size demand true], demand, ?_, rfl⟩
        show _ :: (t.loseRace demand).2.record = _
        rw [hrecord]
        rfl
    · simp only [hholds, if_false, Bool.false_eq_true]
      exact .inr ⟨unchanged_recorded rfl, .inl ⟨_, rfl⟩⟩

end ReferenceMint.Storage.Traced
