import ReferenceMint.Proofs.Storage.Writers

/-!
# Tokens

Over any history of calls on storage in memory that starts empty, the versions of objects make
compare-and-swap sound (`versions_are_sound`). The version of an object counts the writes to its
path, so it never comes back, and as long as there are fewer puts than sixty-four bits count, no two
versions share a token. A token that was given out therefore stands for one object under its path: a
put that demands it takes effect as long as there was no write to the path since, and never again.
-/

namespace ReferenceMint.Storage

open Numeral (limit64)

/-- Whether a call is a put. -/
def Call.isPut : Call → Bool
  | .put .. => true
  | _ => false

/-- A turn gives out a token for the object under a path: it writes the object, tells about it, or
is refused with it. A put that is refused because there is no object gives out none; `before` is
what storage held before the turn. -/
inductive GivesOut (path : String) (before : Objects) : Turn interface → String → Prop
  | written {process data demand given} :
      GivesOut path before ⟨process, .put path data demand, .ok (.written given)⟩ given
  | refused {process data demand given object} (h : before.get? path = some object) :
      GivesOut path before ⟨process, .put path data demand, .ok (.refused given)⟩ given
  | told {process info} :
      GivesOut path before ⟨process, .head path, .ok (some info)⟩ info.version

/-- What versions and their tokens are good for in a history of calls. -/
structure SoundVersions (turns : List (Turn interface)) : Prop where
  /-- The version of an object is the number of writes to its path so far, and there is no object
  where there were none. -/
  counts : ∀ n ≤ turns.length, ∀ path,
    (∀ object, (stored (turns.take n)).get? path = some object →
      object.version = (writesTo path (turns.take n)).length) ∧
    ((stored (turns.take n)).get? path = none ↔ writesTo path (turns.take n) = [])
  /-- A put that demands a token which was given out before takes effect if and only if there was no
  write to the path since. -/
  swaps : ∀ (k l : Nat) (t : Turn interface) (process : Nat) (path : String) (data : ByteArray)
    (given : String) (reply : Except Failure PutResult), k < l → turns[k]? = some t →
    GivesOut path (stored (turns.take k)) t given →
    turns[l]? = some ⟨process, .put path data (.version given), reply⟩ →
    ((∃ now, reply = .ok (.written now)) ↔ writesTo path ((turns.take l).drop (k + 1)) = [])
  /-- Of the puts under a path that demand absence, at most one takes effect. -/
  creates : ∀ (k l first second : Nat) (path : String) (data other : ByteArray)
    (given given' : String),
    turns[k]? = some ⟨first, .put path data .absent, .ok (.written given)⟩ →
    turns[l]? = some ⟨second, .put path other .absent, .ok (.written given')⟩ → k = l
  /-- A put that is refused changes no object and reports the version that stands, zero where there
  is no object. -/
  refuses : ∀ (k process : Nat) (path : String) (data : ByteArray) (demand : Precondition)
    (given : String), turns[k]? = some ⟨process, .put path data demand, .ok (.refused given)⟩ →
    stored (turns.take (k + 1)) = stored (turns.take k) ∧
    (∀ object, (stored (turns.take k)).get? path = some object → given = token object.version) ∧
    ((stored (turns.take k)).get? path = none → given = "0")

section

variable {turns : List (Turn interface)} {path : String}

/-! ## Versions -/

/-- There are no more writes than puts. -/
theorem length_writes_le (turns : List (Turn interface)) :
    (writes turns).length ≤ (turns.filter fun t => t.call.isPut).length := by
  unfold writes
  rw [List.length_filterMap_eq_countP, ← List.countP_eq_length_filter]
  apply List.countP_mono_left
  intro t _ hwrite
  -- Only a put can be a write.
  obtain ⟨process, c, reply⟩ := t
  cases c with
  | put path data demand => rfl
  | head path => exact absurd hwrite (by simp [Write.ofTurn?])
  | get path => exact absurd hwrite (by simp [Write.ofTurn?])

/-- As long as there are fewer puts than sixty-four bits count, they hold each version. -/
theorem version_le_of_few_puts (path : String)
    (hgenuine : Genuine (I := interface) Memory.answer [] turns)
    (hfew : (turns.filter fun t => t.call.isPut).length < 2 ^ 63) (n : Nat) :
    (stored (turns.take n)).version path ≤ limit64 := by
  have hlimit : limit64 + 1 = 2 ^ 63 := by decide
  have hcount : (stored (turns.take n)).version path ≤
      (turns.filter fun t => t.call.isPut).length :=
    calc (stored (turns.take n)).version path
        = (writesTo path (turns.take n)).length :=
          version_stored_eq path hgenuine (List.take_prefix n turns)
      _ ≤ (writes (turns.take n)).length := List.length_filter_le _ _
      _ ≤ (writes turns).length := ((List.take_sublist n turns).filterMap _).length_le
      _ ≤ (turns.filter fun t => t.call.isPut).length := length_writes_le turns
  omega

/-- There is no object exactly where the version is zero. -/
theorem get?_eq_none_iff_version (turns : List (Turn interface)) (path : String) :
    (stored turns).get? path = none ↔ (stored turns).version path = 0 := by
  refine ⟨Objects.version_of_none, fun hzero => ?_⟩
  cases hobject : (stored turns).get? path with
  | none => rfl
  | some object =>
    have hpos := one_le_version_stored hobject
    rw [Objects.version_of_some hobject] at hzero
    omega

/-- The demand for the token of a version holds exactly while the object has this version. -/
theorem holds_token_iff {version : Nat} (hpos : 1 ≤ version) (hle : version ≤ limit64) :
    (Precondition.version (token version)).holds ((stored turns).get? path) = true ↔
      (stored turns).version path = version := by
  rw [holds_version_iff]
  constructor
  · rintro ⟨object, hobject, rfl, -⟩
    exact Objects.version_of_some hobject
  · rintro rfl
    cases hobject : (stored turns).get? path with
    | none =>
      rw [Objects.version_of_none hobject] at hpos
      omega
    | some object => exact ⟨object, rfl, (Objects.version_of_some hobject).symm, hle⟩

/-! ## Puts -/

section

variable {k process : Nat} {data : ByteArray} {demand : Precondition}
  {reply : Except Failure PutResult}

/-- A put takes effect if its demand holds, and adds a version; otherwise it is refused with the
version that stands, and changes nothing. -/
theorem put_cases (hgenuine : Genuine (I := interface) Memory.answer [] turns)
    (ht : turns[k]? = some ⟨process, .put path data demand, reply⟩) :
    (demand.holds ((stored (turns.take k)).get? path) = true ∧
      reply = .ok (.written (token ((stored (turns.take k)).version path + 1))) ∧
      (stored (turns.take (k + 1))).version path = (stored (turns.take k)).version path + 1) ∨
    (demand.holds ((stored (turns.take k)).get? path) ≠ true ∧
      reply = .ok (.refused (token ((stored (turns.take k)).version path))) ∧
      stored (turns.take (k + 1)) = stored (turns.take k)) := by
  have hreply : reply = (Memory.answer (.put path data demand) (stored (turns.take k))).1 :=
    hgenuine k _ ht
  have hafter := stored_take_add_one ht
  by_cases hdemand : demand.holds ((stored (turns.take k)).get? path) = true
  · rw [Memory.answer_put_of_holds data hdemand] at hreply hafter
    refine .inl ⟨hdemand, hreply, ?_⟩
    rw [hafter, Objects.version_of_some (Objects.get?_set_self _ path _)]
    rfl
  · rw [Memory.answer_put_of_not_holds data hdemand] at hreply hafter
    exact .inr ⟨hdemand, hreply, hafter⟩

/-- A put takes effect exactly if its demand holds. -/
theorem written_iff_holds (hgenuine : Genuine (I := interface) Memory.answer [] turns)
    (ht : turns[k]? = some ⟨process, .put path data demand, reply⟩) :
    (∃ now, reply = .ok (.written now)) ↔
      demand.holds ((stored (turns.take k)).get? path) = true := by
  rcases put_cases hgenuine ht with ⟨hholds, hreply, -⟩ | ⟨hnot, hreply, -⟩
  · exact ⟨fun _ => hholds, fun _ => ⟨_, hreply⟩⟩
  · refine ⟨fun ⟨now, hnow⟩ => ?_, fun hholds => absurd hholds hnot⟩
    rw [hreply] at hnow
    exact absurd (Except.ok.inj hnow) (by simp)

end

/-! ## Tokens that were given out -/

/-- A token is given out for the version that the object has after the turn. -/
theorem GivesOut.eq_token {k : Nat} {t : Turn interface} {given : String}
    (hgenuine : Genuine (I := interface) Memory.answer [] turns) (ht : turns[k]? = some t)
    (h : GivesOut path (stored (turns.take k)) t given) :
    given = token ((stored (turns.take (k + 1))).version path) ∧
      1 ≤ (stored (turns.take (k + 1))).version path := by
  cases h with
  | written =>
    rcases put_cases hgenuine ht with ⟨-, hreply, hversion⟩ | ⟨-, hreply, -⟩
    · have hgiven := PutResult.written.inj (Except.ok.inj hreply)
      rw [hversion]
      exact ⟨hgiven, Nat.le_add_left 1 _⟩
    · exact absurd (Except.ok.inj hreply) (by simp)
  | refused hobject =>
    rcases put_cases hgenuine ht with ⟨-, hreply, -⟩ | ⟨-, hreply, hsame⟩
    · exact absurd (Except.ok.inj hreply) (by simp)
    · have hgiven := PutResult.refused.inj (Except.ok.inj hreply)
      rw [hsame]
      refine ⟨hgiven, ?_⟩
      rw [Objects.version_of_some hobject]
      exact one_le_version_stored hobject
  | @told process info =>
    have hreply : Except.ok (some info) =
        (Except.ok (((stored (turns.take k)).get? path).map fun o => o.info path) :
          Except Failure (Option ObjectInfo)) := hgenuine k _ ht
    have hsame : stored (turns.take (k + 1)) = stored (turns.take k) := stored_take_add_one ht
    obtain ⟨object, hobject, hinfo⟩ := Option.map_eq_some_iff.mp (Except.ok.inj hreply).symm
    rw [hsame, Objects.version_of_some hobject, ← hinfo]
    exact ⟨rfl, one_le_version_stored hobject⟩

/-- The writes to a path by a later time are those by an earlier one and those in between. -/
theorem writesTo_take_split (path : String) {a b : Nat} (hab : a ≤ b) :
    writesTo path (turns.take b) =
      writesTo path (turns.take a) ++ writesTo path ((turns.take b).drop a) := by
  rw [← writesTo_append]
  congr 1
  calc turns.take b = (turns.take b).take a ++ (turns.take b).drop a :=
        (List.take_append_drop a _).symm
    _ = turns.take a ++ (turns.take b).drop a := by rw [List.take_take, Nat.min_eq_left hab]

/-- The version of an object is the same at two times if and only if there was no write to its path
in between. -/
theorem version_eq_iff_writesTo_nil (hgenuine : Genuine (I := interface) Memory.answer [] turns)
    {a b : Nat} (hab : a ≤ b) :
    (stored (turns.take b)).version path = (stored (turns.take a)).version path ↔
      writesTo path ((turns.take b).drop a) = [] := by
  rw [version_stored_eq path hgenuine (List.take_prefix b turns),
    version_stored_eq path hgenuine (List.take_prefix a turns), writesTo_take_split path hab,
    List.length_append, ← List.length_eq_zero_iff]
  omega

/-- After a put under a path took effect, none that demands absence does. -/
theorem not_written_absent_after {k l first second : Nat} {data other : ByteArray}
    {demand : Precondition} {given given' : String}
    (hgenuine : Genuine (I := interface) Memory.answer [] turns) (hkl : k < l)
    (hk : turns[k]? = some ⟨first, .put path data demand, .ok (.written given)⟩)
    (hl : turns[l]? = some ⟨second, .put path other .absent, .ok (.written given')⟩) : False := by
  have hgiven : GivesOut path (stored (turns.take k))
      ⟨first, .put path data demand, .ok (.written given)⟩ given := .written
  obtain ⟨-, hpos⟩ := hgiven.eq_token hgenuine hk
  have hgrown : (stored (turns.take (k + 1))).version path ≤ (stored (turns.take l)).version path :=
    version_stored_le path (List.take_prefix_take_left (by omega))
  have hnone := holds_absent_iff.mp ((written_iff_holds hgenuine hl).mp ⟨_, rfl⟩)
  rw [Objects.version_of_none hnone] at hgrown
  omega

end

/-- In every history of calls on storage in memory that starts empty and has fewer than `2 ^ 63`
puts, whatever the paths, the bytes and the demands, versions count writes, a token that was given
out is taken as long as its object has not been written since, an object is created once, and a
refusal changes nothing and tells the version that stands. -/
theorem versions_are_sound (turns : List (Turn interface))
    (hgenuine : Genuine (I := interface) Memory.answer [] turns)
    (hfew : (turns.filter fun t => t.call.isPut).length < 2 ^ 63) : SoundVersions turns where
  counts n _ path := by
    have hversion := version_stored_eq path hgenuine (List.take_prefix n turns)
    constructor
    · intro object hobject
      rw [← hversion, Objects.version_of_some hobject]
    · rw [get?_eq_none_iff_version, hversion, List.length_eq_zero_iff]
  swaps k l t process path data given reply hkl ht hgiven hput := by
    obtain ⟨rfl, hpos⟩ := hgiven.eq_token hgenuine ht
    have hle := version_le_of_few_puts path hgenuine hfew (k + 1)
    rw [written_iff_holds hgenuine hput, holds_token_iff hpos hle]
    exact version_eq_iff_writesTo_nil hgenuine hkl
  creates k l first second path data other given given' hk hl := by
    rcases Nat.lt_trichotomy k l with hlt | heq | hgt
    · exact (not_written_absent_after hgenuine hlt hk hl).elim
    · exact heq
    · exact (not_written_absent_after hgenuine hgt hl hk).elim
  refuses k process path data demand given hput := by
    rcases put_cases hgenuine hput with ⟨-, hreply, -⟩ | ⟨-, hreply, hsame⟩
    · exact absurd (Except.ok.inj hreply) (by simp)
    · have hgiven := PutResult.refused.inj (Except.ok.inj hreply)
      refine ⟨hsame, fun object hobject => ?_, fun hnone => ?_⟩
      · rw [hgiven, Objects.version_of_some hobject]
      · rw [hgiven, Objects.version_of_none hnone]
        rfl

/-- An object is written and asked about, two puts demand the version that was told, and a third one
the version that the second was refused with. -/
def swapping : List Call :=
  [.put "a" ⟨#[1]⟩ .always, .head "a", .put "a" ⟨#[2]⟩ (.version "1"),
    .put "a" ⟨#[3]⟩ (.version "1"), .put "a" ⟨#[4]⟩ (.version "2")]

/-- Of the puts that demand the version that was told only the first takes effect; the other one
learns the version that stands and is followed by a put that demands it, which takes effect. -/
theorem versions_are_sound_swapping :
    ∃ first second third,
      (turnsOf (I := interface) Memory.answer 0 swapping [])[2]? =
        some ⟨0, .put "a" ⟨#[2]⟩ (.version "1"), first⟩ ∧
      (turnsOf (I := interface) Memory.answer 0 swapping [])[3]? =
        some ⟨0, .put "a" ⟨#[3]⟩ (.version "1"), second⟩ ∧
      (turnsOf (I := interface) Memory.answer 0 swapping [])[4]? =
        some ⟨0, .put "a" ⟨#[4]⟩ (.version "2"), third⟩ ∧
      (∃ now, first = .ok (.written now)) ∧ (¬ ∃ now, second = .ok (.written now)) ∧
      ∃ now, third = .ok (.written now) := by
  have hsound := versions_are_sound (turnsOf (I := interface) Memory.answer 0 swapping [])
    (genuine_turnsOf (I := interface) 0 swapping) (by decide)
  refine ⟨_, _, _, rfl, rfl, rfl, ?_, ?_, ?_⟩
  · exact (hsound.swaps 1 2 _ _ "a" _ "1" _ (by decide) rfl .told rfl).mpr rfl
  · intro hsecond
    have hnil := (hsound.swaps 1 3 _ _ "a" _ "1" _ (by decide) rfl .told rfl).mp hsecond
    exact absurd (congrArg List.length hnil) (by decide)
  · exact (hsound.swaps 3 4 _ _ "a" _ "2" _ (by decide) rfl (.refused rfl) rfl).mpr rfl

end ReferenceMint.Storage
