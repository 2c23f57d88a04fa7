import Mathlib.Data.List.Forall2
import Mathlib.Tactic.Common
import ReferenceMint.Environment
import ReferenceMint.Proofs.Reference
import ReferenceMint.Proofs.Text.Blank
import ReferenceMint.Proofs.Text.Numeral

/-!
# Valid configurations, and what an environment makes of the standard one

A configuration gives settings exactly if its values fit together (`Configuration.Valid`), and then
the settings have its values (`Configuration.settings_of_valid`).

What the variables of an environment say is a relation (`Environment.Says`): a variable that is not
set or blank says nothing, and any other has to be a text that denotes a number that its field can
hold. A variable that is set to no text (`Environment.Garbled`) is overlooked by the reader, which
otherwise hears exactly what is said (`Environment.number?_eq_ok_iff`). An environment is read by
reading its variables one after the other (`Environment.overlay_eq`). So the configuration of an
environment is the standard one with the values that are heard in their places; of the malformed
texts the first is reported, and it is reported before the values are compared with each other
(`configurations_are_read_and_checked_exactly`).

A variable that holds no text cannot be parsed and ought to be reported like a malformed text. It is
not, and the standard value takes its place (`garbled_capacity_is_overlooked`).
-/

namespace ReferenceMint

/-! ## Steps that may fail -/

section Steps

variable {α β ε : Type} {f : α → Except ε β}

/-- Steps that may fail give results exactly if each of them gives its result. -/
theorem mapM_eq_ok_iff {as : List α} {bs : List β} :
    as.mapM f = .ok bs ↔ List.Forall₂ (fun a b => f a = .ok b) as bs := by
  induction as generalizing bs with
  | nil =>
    rw [List.mapM_nil, List.forall₂_nil_left_iff]
    constructor
    · intro h
      exact (Except.ok.inj h).symm
    · rintro rfl
      rfl
  | cons a as ih =>
    rw [List.mapM_cons, List.forall₂_cons_left_iff]
    simp only [← ih]
    cases hfirst : f a with
    | error e => simp [bind, Except.bind]
    | ok b =>
      cases hrest : as.mapM f with
      | error e => simp [bind, Except.bind]
      | ok bs => simp [bind, Except.bind, pure, Except.pure, eq_comm]

/-- There are results exactly if each step gives one. -/
theorem exists_mapM_iff {as : List α} :
    (∃ bs, as.mapM f = .ok bs) ↔ ∀ a ∈ as, ∃ b, f a = .ok b := by
  simp only [mapM_eq_ok_iff]
  induction as with
  | nil => simp
  | cons a as ih =>
    rw [List.forall_mem_cons, ← ih]
    constructor
    · rintro ⟨_, hfirst | ⟨hfirst, hrest⟩⟩
      exact ⟨⟨_, hfirst⟩, _, hrest⟩
    · rintro ⟨⟨b, hfirst⟩, bs, hrest⟩
      exact ⟨b :: bs, .cons hfirst hrest⟩

/-- The first step that fails decides. -/
theorem mapM_of_error {before after : List α} {a : α} {e : ε}
    (hbefore : ∀ b ∈ before, ∃ result, f b = .ok result) (ha : f a = .error e) :
    (before ++ a :: after).mapM f = .error e := by
  induction before with
  | nil =>
    rw [List.nil_append, List.mapM_cons, ha]
    rfl
  | cons b before ih =>
    obtain ⟨⟨result, hresult⟩, hrest⟩ := List.forall_mem_cons.mp hbefore
    rw [List.cons_append, List.mapM_cons, hresult, ih hrest]
    rfl

end Steps

/-! ## Valid configurations -/

namespace Configuration

/-- The values of a configuration fit together. -/
structure Valid (c : Configuration) : Prop where
  /-- No portfolio has the code zero. -/
  lowest_pos : 1 ≤ c.lowest.toNat
  /-- There is a portfolio code. -/
  lowest_le : c.lowest.toNat ≤ c.highest.toNat
  /-- There is a layout with so many digits. -/
  digits : 1 ≤ c.digits.toNat ∧ c.digits.toNat ≤ 9
  /-- The capacity is left to the layout, or so many digits can write every sequence. -/
  bucketSize : ∀ n, c.bucketSize = some n → 1 ≤ n.toNat ∧ n.toNat ≤ 10 ^ c.digits.toNat - 1
  /-- A claim is tried. -/
  tries : 1 ≤ c.tries.toNat
  /-- The first delay is not longer than the longest. -/
  delays : c.firstDelay.toNat ≤ c.longestDelay.toNat

variable {c : Configuration} {s : Settings}

/-- A range has a registry if it starts above zero and is not empty. -/
theorem ofRange_of_le {min max : UInt16} (hmin : 1 ≤ min.toNat) (hmax : min.toNat ≤ max.toNat) :
    ∃ r, Registry.ofRange min max = .ok r ∧ r.min = min ∧ r.max = max := by
  have hmin' : 1 ≤ min := UInt16.le_iff_toNat_le.mpr hmin
  unfold Registry.ofRange
  rw [dif_pos hmin', dif_pos (UInt16.le_iff_toNat_le.mpr hmax)]
  exact ⟨_, rfl, rfl, rfl⟩

/-- The settings of a valid configuration have its values. -/
theorem settings_of_valid (h : c.Valid) : ∃ s, c.settings = .ok s ∧
    s.registry.min = c.lowest ∧ s.registry.max = c.highest ∧ s.layout.width = c.digits.toNat ∧
    c.capacity = .ok s.capacity ∧ s.tries = c.tries := by
  obtain ⟨registry, hrange, hmin, hmax⟩ := ofRange_of_le h.lowest_pos h.lowest_le
  have hregistry : c.registry = .ok registry := by
    unfold Configuration.registry
    rw [hrange]
    rfl
  have hlayout : c.layout = .ok ⟨c.digits.toNat, h.digits.1, h.digits.2⟩ := by
    unfold Configuration.layout Layout.ofWidth
    rw [dif_pos h.digits]
    rfl
  generalize hl : (⟨c.digits.toNat, h.digits.1, h.digits.2⟩ : Layout) = l at hlayout
  have hwidth : l.width = c.digits.toNat := by rw [← hl]
  have hcapacity : c.capacity = .ok (c.bucketSize.getD l.largest) := by
    unfold Configuration.capacity
    rw [hlayout]
    rfl
  have hlargest := l.toNat_largest
  rw [hwidth] at hlargest
  -- The largest sequence is at least nine, so it is a capacity itself.
  have hfits : 1 ≤ c.bucketSize.getD l.largest ∧ c.bucketSize.getD l.largest ≤ l.largest := by
    have hone : (1 : UInt32).toNat = 1 := rfl
    rw [UInt32.le_iff_toNat_le, UInt32.le_iff_toNat_le, hone]
    cases hsize : c.bucketSize with
    | none =>
      have hten : 10 ^ 1 ≤ 10 ^ c.digits.toNat := Nat.pow_le_pow_right (by decide) h.digits.1
      show 1 ≤ l.largest.toNat ∧ l.largest.toNat ≤ l.largest.toNat
      omega
    | some n =>
      have hn := h.bucketSize n hsize
      show 1 ≤ n.toNat ∧ n.toNat ≤ l.largest.toNat
      omega
  have htries : 1 ≤ c.tries := UInt32.le_iff_toNat_le.mpr h.tries
  have hsettings : c.settings = .ok ⟨registry, l, c.bucketSize.getD l.largest, c.tries, hfits.1,
      hfits.2, htries⟩ := by
    unfold settings
    rw [hregistry, hlayout]
    simp only
    rw [dif_pos hfits, dif_pos htries, if_pos (UInt64.le_iff_toNat_le.mpr h.delays)]
  exact ⟨_, hsettings, hmin, hmax, hwidth, hcapacity, rfl⟩

/-- A registry is one of the range it was made for. -/
theorem range_of_ofRange {min max : UInt16} {r : Registry} (h : Registry.ofRange min max = .ok r) :
    1 ≤ min.toNat ∧ min.toNat ≤ max.toNat := by
  unfold Registry.ofRange at h
  split_ifs at h with hmin hmax
  exact ⟨UInt16.le_iff_toNat_le.mp hmin, UInt16.le_iff_toNat_le.mp hmax⟩

/-- Only a valid configuration has settings. -/
theorem valid_of_settings (h : c.settings = .ok s) : c.Valid := by
  unfold settings at h
  cases hregistry : c.registry with
  | error e =>
    rw [hregistry] at h
    exact nomatch h
  | ok registry =>
    cases hlayout : c.layout with
    | error e =>
      rw [hregistry, hlayout] at h
      exact nomatch h
    | ok l =>
      rw [hregistry, hlayout] at h
      simp only at h
      split_ifs at h with hcapacity htries hdelays
      obtain ⟨hmin, hmax⟩ : 1 ≤ c.lowest.toNat ∧ c.lowest.toNat ≤ c.highest.toNat := by
        unfold Configuration.registry at hregistry
        cases hrange : Registry.ofRange c.lowest c.highest with
        | error failure =>
          rw [hrange] at hregistry
          exact nomatch hregistry
        | ok r => exact range_of_ofRange hrange
      obtain ⟨hdigits, hwidth⟩ : (1 ≤ c.digits.toNat ∧ c.digits.toNat ≤ 9) ∧
          l.width = c.digits.toNat := by
        unfold Configuration.layout Layout.ofWidth at hlayout
        by_cases hdigits : 1 ≤ c.digits.toNat ∧ c.digits.toNat ≤ 9
        · rw [dif_pos hdigits] at hlayout
          exact ⟨hdigits, by rw [← Except.ok.inj hlayout]⟩
        · rw [dif_neg hdigits] at hlayout
          exact nomatch hlayout
      refine ⟨hmin, hmax, hdigits, fun n hn => ?_, UInt32.le_iff_toNat_le.mp htries,
        UInt64.le_iff_toNat_le.mp hdelays⟩
      rw [hn] at hcapacity
      rw [← hwidth, ← l.toNat_largest]
      exact ⟨UInt32.le_iff_toNat_le.mp hcapacity.1, UInt32.le_iff_toNat_le.mp hcapacity.2⟩

/-- A configuration has settings exactly if it is valid. -/
theorem exists_settings_iff : (∃ s, c.settings = .ok s) ↔ c.Valid := by
  constructor
  · rintro ⟨s, hs⟩
    exact valid_of_settings hs
  · intro h
    obtain ⟨s, hs, -⟩ := settings_of_valid h
    exact ⟨s, hs⟩

/-- A check is passed exactly by valid configurations. -/
theorem check_eq_ok_iff : c.check = .ok () ↔ c.Valid := by
  rw [← exists_settings_iff]
  unfold check
  cases hsettings : c.settings with
  | error e => simp [Except.map]
  | ok s => simp [Except.map]

/-- A check does not speak of variables. -/
theorem ne_malformed_of_check {e : ConfigurationError} (h : c.check = .error e)
    (name value : String) (cause : Numeral.ReadError) : e ≠ .malformed name value cause := by
  rintro rfl
  unfold check settings Configuration.registry Configuration.layout at h
  cases hrange : Registry.ofRange c.lowest c.highest with
  | error failure =>
    rw [hrange] at h
    exact nomatch h
  | ok r =>
    cases hwidth : Layout.ofWidth c.digits with
    | error failure =>
      rw [hrange, hwidth] at h
      exact nomatch h
    | ok l =>
      rw [hrange, hwidth] at h
      simp only [Except.mapError] at h
      split_ifs at h <;> exact nomatch h

end Configuration

/-! ## Variables -/

namespace Environment

variable {Value : Type} [VariableValue Value] {env : Environment Value} {name : String}
  {limit : Nat}

/-- What a variable says about a number up to a limit. -/
inductive Says (env : Environment Value) (name : String) (limit : Nat) : Option Nat → Prop where
  /-- It is not set, and says nothing. -/
  | unset (hunset : env.lookup name = none) : Says env name limit none
  /-- There is nothing but white space in it, and it says nothing. -/
  | blank {value : String} (hset : env.text? name = some value)
      (hblank : ∀ c ∈ value.toList, Text.isBlank c = true) : Says env name limit none
  /-- Between white space, it denotes a number up to the limit. -/
  | number {value : String} {n : Nat} (hset : env.text? name = some value)
      (hdenotes : Numeral.Denotes (Text.trim value.toList) n) (hle : n ≤ limit) :
      Says env name limit (some n)

/-- A variable is set, but to no text. -/
def Garbled (env : Environment Value) (name : String) : Prop :=
  env.lookup name ≠ none ∧ env.text? name = none

/-- What is heard of a variable: what it says, and nothing if it holds no text. -/
def Heard (env : Environment Value) (name : String) (limit : Nat) (given : Option Nat) : Prop :=
  env.Says name limit given ∨ (env.Garbled name ∧ given = none)

/-- A variable that is not set holds no text. -/
theorem text?_of_unset (h : env.lookup name = none) : env.text? name = none := by
  unfold text?
  rw [h]
  rfl

/-- Without a text there is one way to be well-formed, which is not to be set and says nothing. -/
theorem Says.of_no_text {given : Option Nat} (h : env.Says name limit given)
    (htext : env.text? name = none) : env.lookup name = none ∧ given = none := by
  cases h with
  | unset hunset => exact ⟨hunset, rfl⟩
  | blank hset => exact nomatch hset.symm.trans htext
  | number hset => exact nomatch hset.symm.trans htext

/-- Of a variable without text nothing is heard. -/
theorem heard_of_no_text (h : env.text? name = none) {given : Option Nat} :
    env.Heard name limit given ↔ given = none := by
  constructor
  · rintro (hsaid | ⟨-, hgiven⟩)
    · exact (hsaid.of_no_text h).2
    · exact hgiven
  · rintro rfl
    by_cases hunset : env.lookup name = none
    · exact .inl (.unset hunset)
    · exact .inr ⟨⟨hunset, h⟩, rfl⟩

/-- A text is heard as what it says. -/
theorem heard_of_text {value : String} (h : env.text? name = some value) {given : Option Nat} :
    env.Heard name limit given ↔ env.Says name limit given :=
  or_iff_left fun hgarbled => nomatch h.symm.trans hgarbled.1.2

/-- A variable without text is taken for one that is not set. -/
theorem number?_of_no_text (h : env.text? name = none) (limit : Nat) :
    env.number? name limit = .ok none := by
  unfold number?
  rw [h]
  rfl

/-- A text is read without the white space around it. -/
theorem number?_of_text {value : String} (h : env.text? name = some value) (limit : Nat) :
    env.number? name limit = if Text.trim value.toList = [] then .ok none
      else match Numeral.readNat limit (Text.trim value.toList) with
        | .ok n => .ok (some n)
        | .error cause =>
          .error (.malformed name (String.ofList (Text.trim value.toList)) cause) := by
  unfold number?
  rw [h]
  rw [Option.map_some]
  cases Text.trim value.toList with
  | nil => rfl
  | cons c cs => rfl

/-- A text is read exactly as what it says. -/
theorem number?_eq_ok_iff_of_text {value : String} (htext : env.text? name = some value)
    {given : Option Nat} : env.number? name limit = .ok given ↔ env.Says name limit given := by
  have hvalue : ∀ {other}, env.text? name = some other → other = value := fun hset =>
    Option.some.inj (hset.symm.trans htext)
  have hset : env.lookup name ≠ none := fun hunset =>
    nomatch htext.symm.trans (text?_of_unset hunset)
  rw [number?_of_text htext]
  by_cases hblank : Text.trim value.toList = []
  · rw [if_pos hblank]
    constructor
    · intro h
      rw [← Except.ok.inj h]
      exact .blank htext (Text.trim_eq_nil_iff.mp hblank)
    · rintro (hunset | ⟨-, -⟩ | ⟨hother, ⟨ds, hds, hne, -⟩, -⟩)
      · rfl
      · rfl
      · -- What denotes a number is not empty.
        rw [hvalue hother, hblank] at hds
        rcases hds with hds | hds
        · exact absurd hds.symm hne
        · exact nomatch hds
  · rw [if_neg hblank]
    constructor
    · intro h
      cases hread : Numeral.readNat limit (Text.trim value.toList) with
      | error cause =>
        rw [hread] at h
        exact nomatch h
      | ok n =>
        rw [hread] at h
        obtain ⟨hdenotes, hle⟩ := Numeral.readNat_eq_ok_iff.mp hread
        rw [← Except.ok.inj h]
        exact .number htext hdenotes hle
    · rintro (hunset | ⟨hother, hall⟩ | ⟨hother, hdenotes, hle⟩)
      · exact absurd hunset hset
      · rw [hvalue hother] at hall
        exact absurd (Text.trim_eq_nil_iff.mpr hall) hblank
      · rw [hvalue hother] at hdenotes
        rw [Numeral.readNat_eq_ok_iff.mpr ⟨hdenotes, hle⟩]

/-- A variable is read exactly as what is heard of it. -/
theorem number?_eq_ok_iff {given : Option Nat} :
    env.number? name limit = .ok given ↔ env.Heard name limit given := by
  cases htext : env.text? name with
  | none =>
    rw [number?_of_no_text htext, heard_of_no_text htext]
    exact ⟨fun h => (Except.ok.inj h).symm, fun h => by rw [h]⟩
  | some value => rw [number?_eq_ok_iff_of_text htext, heard_of_text htext]

/-- A variable is reported with its text if nothing is heard of it that its field can hold. -/
theorem number?_of_malformed (h : ∀ given, ¬ env.Heard name limit given) :
    ∃ value cause, env.text? name = some value ∧ env.number? name limit =
      .error (.malformed name (String.ofList (Text.trim value.toList)) cause) := by
  cases htext : env.text? name with
  | none => exact absurd ((heard_of_no_text htext).mpr rfl) (h none)
  | some value =>
    cases hread : env.number? name limit with
    | ok given => exact absurd (number?_eq_ok_iff.mp hread) (h given)
    | error e =>
      rw [number?_of_text htext] at hread
      split_ifs at hread with hblank
      cases hnat : Numeral.readNat limit (Text.trim value.toList) with
      | ok n =>
        rw [hnat] at hread
        exact nomatch hread
      | error cause =>
        rw [hnat] at hread
        exact ⟨value, cause, rfl, by rw [← Except.error.inj hread]⟩

/-! ## The configuration of an environment -/

/-- The variables in the order in which they are read, each with the highest number that its field
holds. -/
def fields : List (String × Nat) := [
  ("CLIENTREF_PORTFOLIO_MIN", 2 ^ 16 - 1),
  ("CLIENTREF_PORTFOLIO_MAX", 2 ^ 16 - 1),
  ("CLIENTREF_SEQUENCE_WIDTH", 2 ^ 8 - 1),
  ("CLIENTREF_BUCKET_CAPACITY", 2 ^ 32 - 1),
  ("CLIENTREF_MAX_ATTEMPTS", 2 ^ 32 - 1),
  ("CLIENTREF_BACKOFF_BASE_MS", 2 ^ 64 - 1),
  ("CLIENTREF_BACKOFF_MAX_MS", 2 ^ 64 - 1)]

/-- A variable is not set, blank, or a number that its field can hold. -/
def WellFormed (env : Environment Value) (v : String × Nat) : Prop :=
  ∃ given, env.Says v.1 v.2 given

/-- A variable that holds no text is not well-formed. -/
theorem WellFormed.not_garbled {v : String × Nat} (h : env.WellFormed v) : ¬ env.Garbled v.1 := by
  rintro ⟨hset, htext⟩
  obtain ⟨given, hsaid⟩ := h
  exact hset (hsaid.of_no_text htext).1

/-- A value is what is heard of the variable, or the standard one if that is nothing. -/
def Sets (env : Environment Value) (name : String) (limit standard value : Nat) : Prop :=
  ∃ given, env.Heard name limit given ∧ value = given.getD standard

open ReferenceMint.Configuration (standard) in
/-- A configuration is the standard one with the values that are heard in their places. -/
structure Overlays (env : Environment Value) (c : Configuration) : Prop where
  lowest : env.Sets "CLIENTREF_PORTFOLIO_MIN" (2 ^ 16 - 1) standard.lowest.toNat c.lowest.toNat
  highest : env.Sets "CLIENTREF_PORTFOLIO_MAX" (2 ^ 16 - 1) standard.highest.toNat c.highest.toNat
  digits : env.Sets "CLIENTREF_SEQUENCE_WIDTH" (2 ^ 8 - 1) standard.digits.toNat c.digits.toNat
  /-- The standard configuration leaves the capacity to the layout. -/
  bucketSize : env.Heard "CLIENTREF_BUCKET_CAPACITY" (2 ^ 32 - 1) (c.bucketSize.map UInt32.toNat)
  tries : env.Sets "CLIENTREF_MAX_ATTEMPTS" (2 ^ 32 - 1) standard.tries.toNat c.tries.toNat
  firstDelay : env.Sets "CLIENTREF_BACKOFF_BASE_MS" (2 ^ 64 - 1) standard.firstDelay.toNat
    c.firstDelay.toNat
  longestDelay : env.Sets "CLIENTREF_BACKOFF_MAX_MS" (2 ^ 64 - 1) standard.longestDelay.toNat
    c.longestDelay.toNat

/-- The standard configuration with the given numbers in their places. -/
def overlaid : List (Option Nat) → Configuration
  | [lowest, highest, digits, bucketSize, tries, firstDelay, longestDelay] => {
      lowest := (lowest.map UInt16.ofNat).getD Configuration.standard.lowest
      highest := (highest.map UInt16.ofNat).getD Configuration.standard.highest
      digits := (digits.map UInt8.ofNat).getD Configuration.standard.digits
      bucketSize := bucketSize.map UInt32.ofNat
      tries := (tries.map UInt32.ofNat).getD Configuration.standard.tries
      firstDelay := (firstDelay.map UInt64.ofNat).getD Configuration.standard.firstDelay
      longestDelay := (longestDelay.map UInt64.ofNat).getD Configuration.standard.longestDelay }
  | _ => .standard

/-- Reads a variable. -/
def given (env : Environment Value) (v : String × Nat) :
    Except ConfigurationError (Option Nat) :=
  env.number? v.1 v.2

/-- The variables are read one after the other. -/
theorem overlay_eq (env : Environment Value) :
    env.overlay = overlaid <$> fields.mapM env.given := by
  unfold overlay fields
  simp only [List.mapM_cons, List.mapM_nil, given, map_bind, bind_assoc, pure_bind, map_pure]
  rfl

/-- What is heard of a variable is up to the limit. -/
theorem Heard.le {o : Option Nat} (h : env.Heard name limit o) : ∀ n ∈ o, n ≤ limit := by
  rcases h with (- | - | ⟨-, -, hle⟩) | ⟨-, rfl⟩
  · exact nofun
  · exact nofun
  · intro n hn
    rw [← Option.some.inj hn]
    exact hle
  · exact nofun

/-- In a field that holds the numbers up to the limit, and no others, is what is heard of the
variable, or the standard value. -/
theorem sets_iff {α : Type} {ofNat : Nat → α} {toNat : α → Nat}
    (hinj : ∀ {a b}, toNat a = toNat b → a = b) (hof : ∀ n ≤ limit, toNat (ofNat n) = n)
    {standard value : α} : env.Sets name limit (toNat standard) (toNat value) ↔
      ∃ o, env.Heard name limit o ∧ (o.map ofNat).getD standard = value := by
  constructor
  · rintro ⟨o, ho, hvalue⟩
    refine ⟨o, ho, hinj ?_⟩
    cases o with
    | none => exact hvalue.symm
    | some n => exact (hof n (ho.le n rfl)).trans hvalue.symm
  · rintro ⟨o, ho, rfl⟩
    refine ⟨o, ho, ?_⟩
    cases o with
    | none => rfl
    | some n => exact hof n (ho.le n rfl)

/-- What an environment is read as is its overlay. -/
theorem overlay_eq_ok_iff {c : Configuration} : env.overlay = .ok c ↔ env.Overlays c := by
  have hof8 : ∀ n ≤ 2 ^ 8 - 1, (UInt8.ofNat n).toNat = n := fun n hn =>
    UInt8.toNat_ofNat_of_lt' (Nat.lt_of_le_of_lt hn (by decide))
  have hof16 : ∀ n ≤ 2 ^ 16 - 1, (UInt16.ofNat n).toNat = n := fun n hn =>
    UInt16.toNat_ofNat_of_lt' (Nat.lt_of_le_of_lt hn (by decide))
  have hof32 : ∀ n ≤ 2 ^ 32 - 1, (UInt32.ofNat n).toNat = n := fun n hn =>
    UInt32.toNat_ofNat_of_lt' (Nat.lt_of_le_of_lt hn (by decide))
  have hof64 : ∀ n ≤ 2 ^ 64 - 1, (UInt64.ofNat n).toNat = n := fun n hn =>
    UInt64.toNat_ofNat_of_lt' (Nat.lt_of_le_of_lt hn (by decide))
  rw [overlay_eq]
  constructor
  · intro h
    cases hread : fields.mapM env.given with
    | error e =>
      rw [hread] at h
      exact nomatch h
    | ok numbers =>
      rw [hread] at h
      have hsaid := mapM_eq_ok_iff.mp hread
      simp only [fields, List.forall₂_cons_left_iff, List.forall₂_nil_left_iff, given,
        number?_eq_ok_iff] at hsaid
      obtain ⟨o₁, _, h₁, ⟨o₂, _, h₂, ⟨o₃, _, h₃, ⟨o₄, _, h₄, ⟨o₅, _, h₅, ⟨o₆, _, h₆,
        ⟨o₇, _, h₇, rfl, rfl⟩, rfl⟩, rfl⟩, rfl⟩, rfl⟩, rfl⟩, rfl⟩ := hsaid
      obtain rfl : overlaid [o₁, o₂, o₃, o₄, o₅, o₆, o₇] = c := Except.ok.inj h
      have hsize : (o₄.map UInt32.ofNat).map UInt32.toNat = o₄ := by
        cases o₄ with
        | none => rfl
        | some n => exact congrArg some (hof32 n (h₄.le n rfl))
      exact {
        lowest := (sets_iff UInt16.toNat_inj.mp hof16).mpr ⟨o₁, h₁, rfl⟩
        highest := (sets_iff UInt16.toNat_inj.mp hof16).mpr ⟨o₂, h₂, rfl⟩
        digits := (sets_iff UInt8.toNat_inj.mp hof8).mpr ⟨o₃, h₃, rfl⟩
        bucketSize := hsize.symm ▸ h₄
        tries := (sets_iff UInt32.toNat_inj.mp hof32).mpr ⟨o₅, h₅, rfl⟩
        firstDelay := (sets_iff UInt64.toNat_inj.mp hof64).mpr ⟨o₆, h₆, rfl⟩
        longestDelay := (sets_iff UInt64.toNat_inj.mp hof64).mpr ⟨o₇, h₇, rfl⟩ }
  · intro h
    obtain ⟨o₁, h₁, hlowest⟩ := (sets_iff UInt16.toNat_inj.mp hof16).mp h.lowest
    obtain ⟨o₂, h₂, hhighest⟩ := (sets_iff UInt16.toNat_inj.mp hof16).mp h.highest
    obtain ⟨o₃, h₃, hdigits⟩ := (sets_iff UInt8.toNat_inj.mp hof8).mp h.digits
    obtain ⟨o₅, h₅, htries⟩ := (sets_iff UInt32.toNat_inj.mp hof32).mp h.tries
    obtain ⟨o₆, h₆, hfirst⟩ := (sets_iff UInt64.toNat_inj.mp hof64).mp h.firstDelay
    obtain ⟨o₇, h₇, hlongest⟩ := (sets_iff UInt64.toNat_inj.mp hof64).mp h.longestDelay
    have hsize : (c.bucketSize.map UInt32.toNat).map UInt32.ofNat = c.bucketSize := by
      cases c.bucketSize with
      | none => rfl
      | some n => exact congrArg some (UInt32.ofNat_toNat)
    have hread : fields.mapM env.given =
        .ok [o₁, o₂, o₃, c.bucketSize.map UInt32.toNat, o₅, o₆, o₇] :=
      mapM_eq_ok_iff.mpr (.cons (number?_eq_ok_iff.mpr h₁) (.cons (number?_eq_ok_iff.mpr h₂)
        (.cons (number?_eq_ok_iff.mpr h₃) (.cons (number?_eq_ok_iff.mpr h.bucketSize)
        (.cons (number?_eq_ok_iff.mpr h₅) (.cons (number?_eq_ok_iff.mpr h₆)
        (.cons (number?_eq_ok_iff.mpr h₇) .nil)))))))
    rw [hread]
    refine congrArg Except.ok ?_
    simp only [overlaid, hlowest, hhighest, hdigits, hsize, htries, hfirst, hlongest]

/-- What can be read are the well-formed variables and the overlooked ones. -/
theorem exists_given_iff {v : String × Nat} :
    (∃ o, env.given v = .ok o) ↔ env.WellFormed v ∨ env.Garbled v.1 := by
  unfold WellFormed given
  simp only [number?_eq_ok_iff, Heard, exists_or, exists_and_left, exists_eq, and_true]

/-- An environment has an overlay exactly if all its variables are well-formed or overlooked. -/
theorem exists_overlay_iff :
    (∃ c, env.Overlays c) ↔ ∀ v ∈ fields, env.WellFormed v ∨ env.Garbled v.1 := by
  simp only [← overlay_eq_ok_iff, overlay_eq, ← exists_given_iff]
  rw [← exists_mapM_iff]
  cases fields.mapM env.given with
  | error e => simp
  | ok numbers => simp

/-- The first malformed text is reported. -/
theorem overlay_of_malformed {before after : List (String × Nat)}
    (hfields : fields = before ++ (name, limit) :: after)
    (hbefore : ∀ v ∈ before, env.WellFormed v ∨ env.Garbled v.1)
    (hmalformed : ¬ env.WellFormed (name, limit)) (htext : ¬ env.Garbled name) :
    ∃ value cause, env.text? name = some value ∧ env.overlay =
      .error (.malformed name (String.ofList (Text.trim value.toList)) cause) := by
  obtain ⟨value, cause, hvalue, hread⟩ :=
    @number?_of_malformed Value _ env name limit fun o ho =>
      ho.elim (fun hsaid => hmalformed ⟨o, hsaid⟩) fun hgarbled => htext hgarbled.1
  have hgiven : env.given (name, limit) =
      .error (.malformed name (String.ofList (Text.trim value.toList)) cause) := hread
  refine ⟨value, cause, hvalue, ?_⟩
  rw [overlay_eq, hfields, mapM_of_error (fun v hv => exists_given_iff.mpr (hbefore v hv)) hgiven]
  rfl

/-- An environment that is read is checked. -/
theorem configuration_of_overlays {c : Configuration} (h : env.Overlays c) :
    env.configuration = c.check.map fun _ => c := by
  unfold configuration
  rw [overlay_eq_ok_iff.mpr h]
  show (c.check.bind fun _ => .ok c) = _
  cases c.check <;> rfl

/-- The configuration of an environment is its overlay, if it is valid. -/
theorem configuration_eq_ok_iff {c : Configuration} :
    env.configuration = .ok c ↔ env.Overlays c ∧ c.Valid := by
  constructor
  · intro h
    cases hread : env.overlay with
    | error e =>
      unfold configuration at h
      rw [hread] at h
      exact nomatch h
    | ok other =>
      have hother := overlay_eq_ok_iff.mp hread
      rw [configuration_of_overlays hother] at h
      cases hcheck : other.check with
      | error e =>
        rw [hcheck] at h
        exact nomatch h
      | ok _ =>
        rw [hcheck] at h
        obtain rfl : other = c := Except.ok.inj h
        exact ⟨hother, Configuration.check_eq_ok_iff.mp hcheck⟩
  · rintro ⟨hoverlays, hvalid⟩
    rw [configuration_of_overlays hoverlays, Configuration.check_eq_ok_iff.mpr hvalid]
    rfl

/-- An environment has no two overlays. -/
theorem Overlays.unique {c other : Configuration} (h : env.Overlays c)
    (hother : env.Overlays other) : c = other :=
  Except.ok.inj ((overlay_eq_ok_iff.mpr h).symm.trans (overlay_eq_ok_iff.mpr hother))

/-- What the configuration of an environment has to be. -/
structure ReadsExactly (env : Environment Value) : Prop where
  /-- It is the overlay, if this is valid. -/
  gives : ∀ c, env.configuration = .ok c ↔ env.Overlays c ∧ c.Valid
  /-- If the variables that are set hold texts, there is one exactly if all variables are
  well-formed and the overlay is valid. -/
  succeeds : (∀ v ∈ fields, ¬ env.Garbled v.1) → ((∃ c, env.configuration = .ok c) ↔
    (∀ v ∈ fields, env.WellFormed v) ∧ ∀ c, env.Overlays c → c.Valid)
  /-- Where there is one, all variables are well-formed exactly if those that are set hold texts. -/
  accepts : (∃ c, env.configuration = .ok c) →
    ((∀ v ∈ fields, env.WellFormed v) ↔ ∀ v ∈ fields, ¬ env.Garbled v.1)
  /-- In general there is one exactly if all variables are well-formed or overlooked, and the
  overlay is valid. -/
  overlooks : (∃ c, env.configuration = .ok c) ↔
    (∀ v ∈ fields, env.WellFormed v ∨ env.Garbled v.1) ∧ ∀ c, env.Overlays c → c.Valid
  /-- There is an overlay exactly if all variables are well-formed or overlooked. -/
  overlays : (∃ c, env.Overlays c) ↔ ∀ v ∈ fields, env.WellFormed v ∨ env.Garbled v.1
  /-- The first malformed text is reported, whatever the variables behind it hold. -/
  malformed : ∀ before name limit after, fields = before ++ (name, limit) :: after →
    (∀ v ∈ before, env.WellFormed v ∨ env.Garbled v.1) → ¬ env.WellFormed (name, limit) →
    ¬ env.Garbled name → ∃ value cause, env.text? name = some value ∧ env.configuration =
      .error (.malformed name (String.ofList (Text.trim value.toList)) cause)
  /-- If there is none, what is reported is what is wrong with the overlay. -/
  invalid : ∀ c, env.Overlays c → ¬ c.Valid → ∃ e, env.configuration = .error e ∧
    c.check = .error e ∧ ∀ name value cause, e ≠ .malformed name value cause

/-- There is a configuration exactly if all variables are well-formed or overlooked, and the overlay
is valid. -/
theorem exists_configuration_iff : (∃ c, env.configuration = .ok c) ↔
    (∀ v ∈ fields, env.WellFormed v ∨ env.Garbled v.1) ∧ ∀ c, env.Overlays c → c.Valid := by
  rw [← exists_overlay_iff]
  simp only [configuration_eq_ok_iff]
  constructor
  · rintro ⟨c, hc, hvalid⟩
    exact ⟨⟨c, hc⟩, fun other hother => hc.unique hother ▸ hvalid⟩
  · rintro ⟨⟨c, hc⟩, hvalid⟩
    exact ⟨c, hc, hvalid c hc⟩

/-- Every environment is read exactly. -/
theorem readsExactly (env : Environment Value) : env.ReadsExactly where
  gives _ := configuration_eq_ok_iff
  succeeds htexts := by
    have hall : (∀ v ∈ fields, env.WellFormed v ∨ env.Garbled v.1) ↔
        ∀ v ∈ fields, env.WellFormed v :=
      forall₂_congr fun v hv => or_iff_left (htexts v hv)
    rw [exists_configuration_iff, hall]
  accepts hgives := by
    obtain ⟨hpasses, -⟩ := exists_configuration_iff.mp hgives
    constructor
    · intro hwell v hv
      exact (hwell v hv).not_garbled
    · intro htexts v hv
      exact (hpasses v hv).resolve_right (htexts v hv)
  overlooks := exists_configuration_iff
  overlays := exists_overlay_iff
  malformed before name limit after hfields hbefore hmalformed htext := by
    obtain ⟨value, cause, hvalue, hread⟩ :=
      overlay_of_malformed hfields hbefore hmalformed htext
    refine ⟨value, cause, hvalue, ?_⟩
    unfold configuration
    rw [hread]
    rfl
  invalid c hc hinvalid := by
    rw [configuration_of_overlays hc]
    cases hcheck : c.check with
    | ok _ => exact absurd (Configuration.check_eq_ok_iff.mp hcheck) hinvalid
    | error e => exact ⟨e, rfl, rfl, Configuration.ne_malformed_of_check hcheck⟩

end Environment

/-- What checks of a configuration have to be. -/
structure Configuration.ChecksExactly (c : Configuration) : Prop where
  /-- The check is passed exactly if the values fit together. -/
  accepts : c.check = .ok () ↔ c.Valid
  /-- Exactly then there are settings to issue references with. -/
  settles : (∃ s, c.settings = .ok s) ↔ c.Valid
  /-- They have the capacity of the configuration, which is from one up to the largest sequence. -/
  capacity : ∀ s, c.settings = .ok s → c.capacity = .ok s.capacity ∧ 1 ≤ s.capacity.toNat ∧
    s.capacity.toNat ≤ s.layout.largest.toNat ∧ s.layout.largest.toNat = 10 ^ c.digits.toNat - 1

/-- Every configuration is checked exactly. -/
theorem Configuration.checksExactly (c : Configuration) : c.ChecksExactly where
  accepts := check_eq_ok_iff
  settles := exists_settings_iff
  capacity s hs := by
    obtain ⟨s', hs', -, -, hwidth, hcapacity, -⟩ := settings_of_valid (valid_of_settings hs)
    obtain rfl : s = s' := Except.ok.inj (hs.symm.trans hs')
    refine ⟨hcapacity, UInt32.le_iff_toNat_le.mp s.capacity_pos,
      UInt32.le_iff_toNat_le.mp s.capacity_le, ?_⟩
    rw [s.layout.toNat_largest, hwidth]

/-- An environment makes of the standard configuration exactly what is heard of its variables, and a
configuration is accepted exactly if its values fit together. -/
theorem configurations_are_read_and_checked_exactly {Value : Type} [VariableValue Value]
    (env : Environment Value) (c : Configuration) : env.ReadsExactly ∧ c.ChecksExactly :=
  ⟨env.readsExactly, c.checksExactly⟩

/-- An environment whose capacity is a one, a zero, and a byte that is in no text. -/
def garbledCapacity : Environment ByteArray :=
  [("CLIENTREF_BUCKET_CAPACITY", ⟨#[0x31, 0x30, 0xff]⟩)]

/-- The capacity is set, and it is neither blank nor a number. Yet there is a configuration, which
is the standard one. -/
theorem garbled_capacity_is_overlooked :
    ("CLIENTREF_BUCKET_CAPACITY", 2 ^ 32 - 1) ∈ Environment.fields ∧
      garbledCapacity.Garbled "CLIENTREF_BUCKET_CAPACITY" ∧
      ¬ garbledCapacity.WellFormed ("CLIENTREF_BUCKET_CAPACITY", 2 ^ 32 - 1) ∧
      garbledCapacity.configuration = .ok .standard := by
  have hgarbled : garbledCapacity.Garbled "CLIENTREF_BUCKET_CAPACITY" :=
    ⟨nofun, by decide +kernel⟩
  exact ⟨by decide, hgarbled, fun h => h.not_garbled hgarbled, by decide +kernel⟩

end ReferenceMint
