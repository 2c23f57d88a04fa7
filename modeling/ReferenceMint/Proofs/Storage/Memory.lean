import Mathlib.Tactic.Common
import ReferenceMint.Proofs.Interleaving
import ReferenceMint.Proofs.Text.Numeral
import ReferenceMint.Storage.Memory

/-!
# Objects and their versions

An object in storage only ever changes together with its version, which goes up by one with each
write. So an object that is found with the same version at two times is the same object
(`get?_replay`), and a write that demands a version finds the object that had this version.

Some turns write (`Write.ofTurn?`), and these are the only ones that change anything
(`stored_take_succ`). The writes to one path build up its object one version after the other
(`get?_stored_eq`).
-/

namespace ReferenceMint.Storage

open Numeral (limit64)

/-! ## Tokens -/

/-- The version of a token is the one that it was made for, as long as sixty-four bits hold it. -/
theorem versionOf_token (version : Nat) :
    versionOf (token version) = if version ≤ limit64 then (version : Int) else -1 := by
  unfold versionOf token Numeral.text
  rw [String.toList_ofList, Numeral.readInt64_digits]
  by_cases h : version ≤ limit64
  · simp only [h, if_true]
  · simp only [h, if_false]

/-- The demand for a version holds of the objects with this version, as long as sixty-four bits hold
it. -/
theorem holds_version_iff {version : Nat} {current : Option Object} :
    (Precondition.version (token version)).holds current = true ↔
      ∃ object, current = some object ∧ object.version = version ∧ version ≤ limit64 := by
  cases current with
  | none => simp [Precondition.holds]
  | some object =>
    show decide ((object.version : Int) = versionOf (token version)) = true ↔ _
    rw [versionOf_token]
    by_cases h : version ≤ limit64
    · simp only [h, if_true, decide_eq_true_eq, Int.natCast_inj, Option.some.injEq,
        exists_eq_left', and_true]
    · -- The token of a higher version is read as one that no object has.
      simp only [h, if_false, decide_eq_true_eq]
      constructor
      · intro hneg
        omega
      · rintro ⟨_, _, _, hle⟩
        exact absurd hle (by simp)

/-- The demand for absence holds where there is no object. -/
theorem holds_absent_iff {current : Option Object} :
    Precondition.absent.holds current = true ↔ current = none := by
  cases current <;> simp [Precondition.holds]

/-! ## Objects under paths -/

namespace Objects

/-- The object under a path is the one that was put there. -/
theorem get?_set_self (objects : Objects) (path : String) (object : Object) :
    (objects.set path object).get? path = some object := by
  unfold get?
  induction objects with
  | nil => simp [set]
  | cons entry objects ih =>
    obtain ⟨other, o⟩ := entry
    unfold set
    by_cases h : other = path
    · simp [h]
    · have hne : (path == other) = false := by simpa using fun heq => h heq.symm
      rw [if_neg h, List.lookup_cons, hne]
      exact ih

/-- Objects under other paths stay as they are. -/
theorem get?_set_ne (objects : Objects) {path other : String} (object : Object)
    (h : other ≠ path) : (objects.set path object).get? other = objects.get? other := by
  have hne : (other == path) = false := by simpa using h
  unfold get?
  induction objects with
  | nil => simp [set, List.lookup_cons, hne]
  | cons entry objects ih =>
    obtain ⟨third, o⟩ := entry
    unfold set
    by_cases hthird : third = path
    · rw [if_pos hthird, List.lookup_cons, List.lookup_cons, hthird, hne]
    · rw [if_neg hthird, List.lookup_cons, List.lookup_cons, ih]

end Objects

/-- The object is the same or was written later. -/
def Object.Since (earlier later : Object) : Prop :=
  later = earlier ∨ earlier.version < later.version

/-- A write is refused with the token of the object that stands, unless its demand holds. -/
theorem Memory.refusal?_eq (demand : Precondition) (current : Option Object) :
    Memory.refusal? demand current =
      if demand.holds current then none else some (currentToken current) := by
  cases demand with
  | absent => cases current <;> rfl
  | always => cases current <;> rfl
  | version expected =>
    cases current with
    | none => rfl
    | some object =>
      by_cases h : (object.version : Int) = versionOf expected
      · simp [Memory.refusal?, Precondition.holds, h]
      · simp [Memory.refusal?, Precondition.holds, currentToken, h]

/-- A put whose demand holds replaces the object. -/
theorem Memory.answer_put_of_holds {objects : Objects} {path : String} (data : ByteArray)
    {demand : Precondition} (h : demand.holds (objects.get? path) = true) :
    Memory.answer (.put path data demand) objects =
      (.ok (.written (token (rewritten (objects.get? path) data).version)),
        objects.set path (rewritten (objects.get? path) data)) := by
  unfold Memory.answer Memory.put
  simp only [Memory.refusal?_eq, h, if_true]

/-- A put whose demand does not hold changes nothing. -/
theorem Memory.answer_put_of_not_holds {objects : Objects} {path : String} (data : ByteArray)
    {demand : Precondition} (h : ¬ demand.holds (objects.get? path) = true) :
    Memory.answer (.put path data demand) objects =
      (.ok (.refused (currentToken (objects.get? path))), objects) := by
  unfold Memory.answer Memory.put
  simp [Memory.refusal?_eq, h]

/-- Reading an object changes nothing. -/
theorem Memory.answer_get_snd (objects : Objects) (path : String) :
    (Memory.answer (.get path) objects).2 = objects := by
  unfold Memory.answer
  cases h : objects.get? path <;> simp [h]

/-- An object that is there is answered with its bytes. -/
theorem Memory.answer_get_fst {objects : Objects} {path : String} {object : Object}
    (h : objects.get? path = some object) :
    (Memory.answer (.get path) objects).1 = .ok object.data := by
  unfold Memory.answer
  simp only [h]
  rfl

/-- A call leaves an object or replaces it by one with a higher version. -/
theorem Memory.get?_answer {objects : Objects} {path : String} {object : Object}
    (h : objects.get? path = some object) (c : Call) :
    ∃ later, (Memory.answer c objects).2.get? path = some later ∧ object.Since later := by
  have hsame : ∃ later, objects.get? path = some later ∧ object.Since later :=
    ⟨object, h, .inl rfl⟩
  cases c with
  | head other => exact hsame
  | get other =>
    rw [Memory.answer_get_snd]
    exact hsame
  | put other data demand =>
    by_cases hdemand : demand.holds (objects.get? other) = true
    · rw [Memory.answer_put_of_holds data hdemand]
      -- Only a put under this very path replaces the object.
      by_cases hpath : path = other
      · subst hpath
        refine ⟨_, objects.get?_set_self path _, .inr ?_⟩
        rw [h]
        exact Nat.lt_succ_self _
      · refine ⟨object, ?_, .inl rfl⟩
        rw [← h]
        exact objects.get?_set_ne _ hpath
    · rw [Memory.answer_put_of_not_holds data hdemand]
      exact hsame

/-- What was in storage before turns is still there afterwards, or was replaced by objects with
higher versions. -/
theorem get?_replay {objects : Objects} {path : String} {object : Object}
    (h : objects.get? path = some object) (turns : List (Turn interface)) :
    ∃ later, (replay Memory.answer objects turns).get? path = some later ∧ object.Since later := by
  -- By induction on the turns, as being later is transitive.
  induction turns generalizing objects object with
  | nil => exact ⟨object, h, .inl rfl⟩
  | cons t turns ih =>
    obtain ⟨middle, hmiddle, hsince⟩ := Memory.get?_answer h t.call
    obtain ⟨later, hlater, hsince'⟩ := ih hmiddle
    refine ⟨later, hlater, ?_⟩
    rcases hsince with rfl | hlt
    · exact hsince'
    · rcases hsince' with rfl | hlt'
      · exact .inr hlt
      · exact .inr (Nat.lt_trans hlt hlt')

/-! ## Writes -/

/-- A write that took effect. -/
structure Write where
  /-- The process that wrote. -/
  process : Nat
  path : String
  data : ByteArray
  /-- The token of the version that the object got. -/
  version : String

/-- The write of a turn, if the turn wrote and the write took effect. -/
def Write.ofTurn? : Turn interface → Option Write
  | ⟨process, .put path data _, .ok (.written version)⟩ => some ⟨process, path, data, version⟩
  | _ => none

/-- The writes of turns, in the order of the turns. -/
def writes (turns : List (Turn interface)) : List Write := turns.filterMap Write.ofTurn?

/-- The writes to one path. -/
def writesTo (path : String) (turns : List (Turn interface)) : List Write :=
  (writes turns).filter fun write => write.path = path

/-- The state after a write. -/
def Write.applied (write : Write) (objects : Objects) : Objects :=
  objects.set write.path (rewritten (objects.get? write.path) write.data)

/-- A write is that of the process whose turn it is. -/
theorem Write.process_eq {t : Turn interface} {write : Write} (h : Write.ofTurn? t = some write) :
    write.process = t.process := by
  unfold Write.ofTurn? at h
  split at h
  · rw [← Option.some.inj h]
  · exact absurd h (by simp)

/-- A turn without effect on any object is no write, and a write has the effect that it says, under
the demand that it was made on. -/
theorem Write.cases_ofTurn? {objects : Objects} {t : Turn interface}
    (ht : t.reply = (Memory.answer t.call objects).1) :
    (Write.ofTurn? t = none ∧ (Memory.answer t.call objects).2 = objects) ∨
    ∃ write demand, Write.ofTurn? t = some write ∧ t.call = .put write.path write.data demand ∧
      demand.holds (objects.get? write.path) = true ∧
      write.version = token (rewritten (objects.get? write.path) write.data).version ∧
      (Memory.answer t.call objects).2 = write.applied objects := by
  obtain ⟨process, c, reply⟩ := t
  simp only at ht
  subst ht
  -- Only a put can write, and only if its demand holds.
  cases c with
  | head path => exact .inl ⟨rfl, rfl⟩
  | get path => exact .inl ⟨rfl, Memory.answer_get_snd objects path⟩
  | put path data demand =>
    by_cases hdemand : demand.holds (objects.get? path) = true
    · right
      refine ⟨⟨process, path, data, token (rewritten (objects.get? path) data).version⟩, demand, ?_,
        rfl, hdemand, rfl, ?_⟩
      · rw [Memory.answer_put_of_holds data hdemand]
        rfl
      · rw [Memory.answer_put_of_holds data hdemand]
        rfl
    · left
      rw [Memory.answer_put_of_not_holds data hdemand]
      exact ⟨rfl, rfl⟩

/-! ## What turns leave in storage -/

/-- What storage holds after turns, if it held nothing before. -/
abbrev stored (turns : List (Turn interface)) : Objects :=
  replay (I := interface) Memory.answer [] turns

variable {turns : List (Turn interface)}

/-- What storage holds is still there after more turns, or was replaced by later objects. -/
theorem get?_stored {path : String} {object : Object} (h : (stored turns).get? path = some object)
    (later : List (Turn interface)) :
    ∃ newer, (stored (turns ++ later)).get? path = some newer ∧ object.Since newer := by
  rw [stored, replay_append]
  exact get?_replay h later

/-- One turn more leaves what its call leaves. -/
theorem stored_take_add_one {k : Nat} {t : Turn interface} (ht : turns[k]? = some t) :
    stored (turns.take (k + 1)) = (Memory.answer t.call (stored (turns.take k))).2 := by
  rw [List.take_add_one, ht]
  exact replay_concat _ _

/-- One turn more either writes nothing and changes nothing, or has the effect of its write. -/
theorem stored_take_succ {k : Nat} {t : Turn interface}
    (hgenuine : Genuine (I := interface) Memory.answer [] turns) (ht : turns[k]? = some t) :
    (Write.ofTurn? t = none ∧ stored (turns.take (k + 1)) = stored (turns.take k)) ∨
    ∃ write, Write.ofTurn? t = some write ∧
      stored (turns.take (k + 1)) = write.applied (stored (turns.take k)) := by
  have hstep := stored_take_add_one ht
  rcases Write.cases_ofTurn? (hgenuine k t ht) with
    ⟨hnone, hsame⟩ | ⟨write, demand, hwrite, -, -, -, happlied⟩
  · exact .inl ⟨hnone, hstep.trans hsame⟩
  · exact .inr ⟨write, hwrite, hstep.trans happlied⟩

/-- One turn more adds its write, if it has one. -/
theorem writes_take_succ {k : Nat} {t : Turn interface} (ht : turns[k]? = some t) :
    writes (turns.take (k + 1)) = writes (turns.take k) ++ (Write.ofTurn? t).toList := by
  unfold writes
  rw [List.take_add_one, ht, List.filterMap_append]
  cases hwrite : Write.ofTurn? t <;> simp [hwrite]

/-- The object under a path has the bytes of the last write to it, and as many versions as there
were writes. -/
theorem get?_stored_eq (hgenuine : Genuine (I := interface) Memory.answer [] turns) (path : String)
    (n : Nat) (hn : n ≤ turns.length) : (stored (turns.take n)).get? path =
      (writesTo path (turns.take n)).getLast?.map fun write =>
        ⟨write.data, (writesTo path (turns.take n)).length⟩ := by
  induction n with
  | zero => rfl
  | succ n ih =>
    have hbefore := ih (by omega)
    have ht : turns[n]? = some turns[n] := List.getElem?_eq_getElem (by omega)
    have hwrites := writes_take_succ ht
    rcases stored_take_succ hgenuine ht with ⟨hnone, hsame⟩ | ⟨write, hwrite, happlied⟩
    · have hwritesTo : writesTo path (turns.take (n + 1)) = writesTo path (turns.take n) := by
        unfold writesTo
        rw [hwrites, hnone]
        simp
      rw [hsame, hwritesTo]
      exact hbefore
    · rw [happlied]
      unfold Write.applied
      -- A write to the path adds a version, and one to another path does not count here.
      by_cases hpath : path = write.path
      · have hwritesTo : writesTo path (turns.take (n + 1)) =
            writesTo path (turns.take n) ++ [write] := by
          unfold writesTo
          rw [hwrites, hwrite]
          simp [hpath]
        rw [hwritesTo, ← hpath, Objects.get?_set_self, hbefore]
        unfold rewritten
        cases hlast : (writesTo path (turns.take n)).getLast? with
        | none =>
          rw [List.getLast?_eq_none_iff] at hlast
          simp [hlast]
        | some last => simp
      · have hwritesTo : writesTo path (turns.take (n + 1)) = writesTo path (turns.take n) := by
          unfold writesTo
          rw [hwrites, hwrite]
          simp [Ne.symm hpath]
        rw [hwritesTo, Objects.get?_set_ne _ _ hpath]
        exact hbefore

/-- A turn that writes to a path comes before the other writes to it. -/
theorem writesTo_cons_of_eq {path : String} {t : Turn interface} {write : Write}
    (hwrite : Write.ofTurn? t = some write) (hpath : write.path = path) :
    writesTo path (t :: turns) = write :: writesTo path turns := by
  unfold writesTo writes
  rw [List.filterMap_cons, hwrite]
  simp [hpath]

/-- A turn that does not write to a path does not count. -/
theorem writesTo_cons_of_ne {path : String} {t : Turn interface}
    (h : ∀ write, Write.ofTurn? t = some write → write.path ≠ path) :
    writesTo path (t :: turns) = writesTo path turns := by
  unfold writesTo writes
  rw [List.filterMap_cons]
  cases hwrite : Write.ofTurn? t with
  | none => rfl
  | some write => simp [h write hwrite]

/-- Each write to a path was made in some turn, and the writes before it were made before. -/
theorem exists_turn_of_writesTo {path : String} {v : Nat} {write : Write}
    (h : (writesTo path turns)[v]? = some write) :
    ∃ (k : Nat) (t : Turn interface), turns[k]? = some t ∧ Write.ofTurn? t = some write ∧
      write.path = path ∧ writesTo path (turns.take k) = (writesTo path turns).take v := by
  induction turns generalizing v with
  | nil => simp [writesTo, writes] at h
  | cons t turns ih =>
    -- A first turn that writes to the path makes the first version; any other does not count.
    by_cases hnot : ∀ write, Write.ofTurn? t = some write → write.path ≠ path
    · rw [writesTo_cons_of_ne hnot] at h ⊢
      obtain ⟨k, u, hu, hwrite, hpath, htake⟩ := ih h
      refine ⟨k + 1, u, hu, hwrite, hpath, ?_⟩
      rw [List.take_succ_cons, writesTo_cons_of_ne hnot, htake]
    · obtain ⟨first, hfirst, hpath⟩ : ∃ first, Write.ofTurn? t = some first ∧
          first.path = path := by simpa using hnot
      rw [writesTo_cons_of_eq hfirst hpath] at h ⊢
      cases v with
      | zero =>
        obtain rfl : first = write := by simpa using h
        exact ⟨0, t, rfl, hfirst, hpath, rfl⟩
      | succ v =>
        rw [List.getElem?_cons_succ] at h
        obtain ⟨k, u, hu, hwrite, hpath', htake⟩ := ih h
        refine ⟨k + 1, u, hu, hwrite, hpath', ?_⟩
        rw [List.take_succ_cons, writesTo_cons_of_eq hfirst hpath, htake, List.take_succ_cons]

end ReferenceMint.Storage
