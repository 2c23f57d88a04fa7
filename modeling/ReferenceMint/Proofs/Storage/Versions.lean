import Mathlib.Data.Finset.Card
import ReferenceMint.Proofs.Storage.Memory

/-!
# Versions as time

The version of an object never goes down, and it goes up by one with each write to its path. So
versions tell how far turns have come: between two times there were as many writes to a path as its
object has more versions at the later one (`exists_places_of_version`).
-/

namespace ReferenceMint.Storage

/-- The version of the object under a path, zero where there is none. -/
def Objects.version (objects : Objects) (path : String) : Nat :=
  ((objects.get? path).map Object.version).getD 0

/-- The version of an object that is there. -/
theorem Objects.version_of_some {objects : Objects} {path : String} {object : Object}
    (h : objects.get? path = some object) : objects.version path = object.version := by
  unfold version
  rw [h]
  rfl

/-- Where there is no object the version is zero. -/
theorem Objects.version_of_none {objects : Objects} {path : String}
    (h : objects.get? path = none) : objects.version path = 0 := by
  unfold version
  rw [h]
  rfl

/-- A call keeps the versions of objects at one or above. -/
theorem one_le_version_answer {objects : Objects} {path : String} {object : Object} (c : Call)
    (h : ∀ object, objects.get? path = some object → 1 ≤ object.version)
    (hobject : (Memory.answer c objects).2.get? path = some object) : 1 ≤ object.version := by
  cases c with
  | head other => exact h object hobject
  | get other =>
    rw [Memory.answer_get_snd] at hobject
    exact h object hobject
  | put other data demand =>
    by_cases hdemand : demand.holds (objects.get? other) = true
    · rw [Memory.answer_put_of_holds data hdemand] at hobject
      by_cases hpath : path = other
      · subst hpath
        rw [Objects.get?_set_self] at hobject
        rw [← Option.some.inj hobject]
        exact Nat.le_add_left 1 _
      · rw [Objects.get?_set_ne _ _ hpath] at hobject
        exact h object hobject
    · rw [Memory.answer_put_of_not_holds data hdemand] at hobject
      exact h object hobject

variable {turns earlier : List (Turn interface)} {path : String}

/-- What turns have left in storage has a version of one or above. -/
theorem one_le_version_stored {object : Object} (h : (stored turns).get? path = some object) :
    1 ≤ object.version := by
  induction turns using List.reverseRecOn generalizing object with
  | nil => exact absurd h (by simp [stored, replay, Objects.get?])
  | append_singleton turns t ih =>
    rw [stored, replay_concat] at h
    exact one_le_version_answer t.call (fun _ => ih) h

/-- Versions do not go down. -/
theorem version_stored_le (path : String) (h : earlier <+: turns) :
    (stored earlier).version path ≤ (stored turns).version path := by
  obtain ⟨later, rfl⟩ := h
  cases hobject : (stored earlier).get? path with
  | none =>
    rw [Objects.version_of_none hobject]
    exact Nat.zero_le _
  | some object =>
    obtain ⟨newer, hnewer, hsince⟩ := get?_stored hobject later
    rw [Objects.version_of_some hobject, Objects.version_of_some hnewer]
    rcases hsince with rfl | hlt
    · exact Nat.le_refl _
    · exact Nat.le_of_lt hlt

/-- Where there is no newer version there is the same object. -/
theorem get?_eq_of_version_le {path : String} (h : earlier <+: turns)
    (hle : (stored turns).version path ≤ (stored earlier).version path) :
    (stored turns).get? path = (stored earlier).get? path := by
  obtain ⟨later, rfl⟩ := h
  cases hobject : (stored earlier).get? path with
  | none =>
    rw [Objects.version_of_none hobject] at hle
    cases hnewer : (stored (earlier ++ later)).get? path with
    | none => rfl
    | some newer =>
      have hpos := one_le_version_stored hnewer
      rw [Objects.version_of_some hnewer] at hle
      omega
  | some object =>
    obtain ⟨newer, hnewer, hsince⟩ := get?_stored hobject later
    rw [Objects.version_of_some hobject, Objects.version_of_some hnewer] at hle
    rw [hnewer]
    rcases hsince with rfl | hlt
    · rfl
    · omega

/-- The version of an object is the number of writes to its path. -/
theorem version_stored_eq (path : String)
    (hgenuine : Genuine (I := interface) Memory.answer [] turns) (h : earlier <+: turns) :
    (stored earlier).version path = (writesTo path earlier).length := by
  have hlength := h.length_le
  rw [List.prefix_iff_eq_take.mp h]
  unfold Objects.version
  rw [get?_stored_eq hgenuine path _ hlength]
  cases hlast : (writesTo path (turns.take earlier.length)).getLast? with
  | none =>
    rw [List.getLast?_eq_none_iff] at hlast
    simp [hlast]
  | some write => simp

/-- One turn more adds a write to the path, or it is none. -/
theorem writesTo_take_succ (path : String) {k : Nat} {t : Turn interface}
    (ht : turns[k]? = some t) :
    writesTo path (turns.take (k + 1)) = writesTo path (turns.take k) ∨
    ∃ write, Write.ofTurn? t = some write ∧ write.path = path ∧
      writesTo path (turns.take (k + 1)) = writesTo path (turns.take k) ++ [write] := by
  unfold writesTo
  rw [writes_take_succ ht]
  cases hwrite : Write.ofTurn? t with
  | none => exact .inl (by simp)
  | some write =>
    by_cases hpath : write.path = path
    · exact .inr ⟨write, rfl, hpath, by simp [hpath]⟩
    · exact .inl (by simp [hpath])

/-- Between two times there are places of writes to a path, as many as there are more writes. -/
theorem exists_places_of_writesTo (path : String) {a b : Nat} (hab : a ≤ b)
    (hb : b ≤ turns.length) :
    ∃ places : Finset Nat,
      (writesTo path (turns.take a)).length + places.card =
        (writesTo path (turns.take b)).length ∧
      ∀ k ∈ places, a ≤ k ∧ k < b ∧ ∃ t write, turns[k]? = some t ∧
        Write.ofTurn? t = some write ∧ write.path = path := by
  induction b, hab using Nat.le_induction with
  | base => exact ⟨∅, by simp, by simp⟩
  | succ b hab ih =>
    obtain ⟨places, hcard, hplaces⟩ := ih (by omega)
    have ht : turns[b]? = some turns[b] := List.getElem?_eq_getElem (by omega)
    rcases writesTo_take_succ path ht with hsame | ⟨write, hwrite, hpath, hmore⟩
    · refine ⟨places, by rw [hsame]; exact hcard, fun k hk => ?_⟩
      obtain ⟨hge, hlt, hturn⟩ := hplaces k hk
      exact ⟨hge, by omega, hturn⟩
    · have hnew : b ∉ places := fun hmem => Nat.lt_irrefl b (hplaces b hmem).2.1
      refine ⟨insert b places, ?_, fun k hk => ?_⟩
      · rw [Finset.card_insert_of_notMem hnew, hmore, List.length_append, List.length_singleton]
        omega
      · rcases Finset.mem_insert.mp hk with rfl | hk
        · exact ⟨hab, by omega, _, write, ht, hwrite, hpath⟩
        · obtain ⟨hge, hlt, hturn⟩ := hplaces k hk
          exact ⟨hge, by omega, hturn⟩

/-- Between two times there were as many writes to a path as its object has more versions. -/
theorem exists_places_of_version (path : String)
    (hgenuine : Genuine (I := interface) Memory.answer [] turns)
    {first last : List (Turn interface)} (hfirst : first <+: last) (hlast : last <+: turns) :
    ∃ places : Finset Nat,
      (stored first).version path + places.card = (stored last).version path ∧
      ∀ k ∈ places, first.length ≤ k ∧ k < last.length ∧ ∃ t write, turns[k]? = some t ∧
        Write.ofTurn? t = some write ∧ write.path = path := by
  have hplaces := exists_places_of_writesTo path hfirst.length_le hlast.length_le
  rw [← List.prefix_iff_eq_take.mp hlast, ← List.prefix_iff_eq_take.mp (hfirst.trans hlast)]
    at hplaces
  rw [version_stored_eq path hgenuine (hfirst.trans hlast), version_stored_eq path hgenuine hlast]
  exact hplaces

end ReferenceMint.Storage
