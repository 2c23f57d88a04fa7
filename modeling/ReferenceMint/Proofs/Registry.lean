import Mathlib.Data.List.Basic
import Mathlib.Tactic.Common
import ReferenceMint.Registry

/-!
# A registry is a finite map

The codes of a registry are the numbers of its range, and an integer is checked to be a code without
being cut down to sixteen bits first (`Registry.check_eq_ok_iff`, `Registry.mem_codes`). The
registered portfolios are kept by ascending code, so they are a map from codes to portfolios:
`Registry.find?_insert` says that putting in a portfolio changes the value at its code and at no
other.

`registrations_are_kept` carries this over any attempts to register. A registration succeeds exactly
if it fits the range and names something, and afterwards the registry has the last fitting name of
every code.
-/

namespace ReferenceMint

/-- A portfolio code is determined by its number. -/
theorem PortfolioCode.ext_number {a b : PortfolioCode} (h : a.number.toNat = b.number.toNat) :
    a = b := by
  cases a
  cases b
  exact congrArg mk (UInt16.toNat_inj.mp h)

namespace Registry

variable {r : Registry}

/-! ## Codes -/

/-- A code is in the range if its number is. -/
theorem contains_iff {code : PortfolioCode} : r.contains code = true ↔
    r.min.toNat ≤ code.number.toNat ∧ code.number.toNat ≤ r.max.toNat := by
  unfold contains
  rw [Bool.and_eq_true, decide_eq_true_eq, decide_eq_true_eq, UInt16.le_iff_toNat_le,
    UInt16.le_iff_toNat_le]

/-- An integer is checked to be a code if it is the number of the code, and the code is in the
range. -/
theorem check_eq_ok_iff {n : Int} {code : PortfolioCode} : r.check n = .ok code ↔
    (code.number.toNat : Int) = n ∧ r.contains code = true := by
  have hmax : r.max.toNat < 2 ^ 16 := r.max.toNat_lt
  rw [contains_iff]
  unfold check
  split_ifs with hrange
  · -- An integer of the range has no more than sixteen bits, so nothing of it is cut off.
    have hnumber : (UInt16.ofNat n.toNat).toNat = n.toNat := by
      apply UInt16.toNat_ofNat_of_lt'
      show n.toNat < 2 ^ 16
      omega
    constructor
    · intro h
      have hcode : (⟨UInt16.ofNat n.toNat⟩ : PortfolioCode) = code := Except.ok.inj h
      rw [← hcode]
      show ((UInt16.ofNat n.toNat).toNat : Int) = n ∧
        r.min.toNat ≤ (UInt16.ofNat n.toNat).toNat ∧ (UInt16.ofNat n.toNat).toNat ≤ r.max.toNat
      omega
    · rintro ⟨hn, -⟩
      have hsame : (⟨UInt16.ofNat n.toNat⟩ : PortfolioCode) = code :=
        PortfolioCode.ext_number (show (UInt16.ofNat n.toNat).toNat = code.number.toNat by omega)
      rw [hsame]
  · constructor
    · intro h
      exact nomatch h
    · rintro ⟨hn, hcode⟩
      exact absurd (by omega) hrange

/-- An integer is a code of the range exactly if it lies in the range. -/
theorem exists_check_iff {n : Int} :
    (∃ code, r.check n = .ok code) ↔ (r.min.toNat : Int) ≤ n ∧ n ≤ r.max.toNat := by
  constructor
  · rintro ⟨code, hcode⟩
    obtain ⟨hn, hcontains⟩ := check_eq_ok_iff.mp hcode
    rw [contains_iff] at hcontains
    omega
  · intro hrange
    exact ⟨_, if_pos hrange⟩

/-- The numbers of the codes of a range follow each other. -/
theorem map_number_codes : r.codes.map (fun code => code.number.toNat) =
    List.range' r.min.toNat (r.max.toNat + 1 - r.min.toNat) := by
  have hmax : r.max.toNat < 2 ^ 16 := r.max.toNat_lt
  have hnumber : ∀ n ∈ List.range' r.min.toNat (r.max.toNat + 1 - r.min.toNat),
      (UInt16.ofNat n).toNat = n := by
    intro n hn
    obtain ⟨-, hlt⟩ := List.mem_range'_1.mp hn
    have hle := UInt16.le_iff_toNat_le.mp r.min_le_max
    apply UInt16.toNat_ofNat_of_lt'
    show n < 2 ^ 16
    omega
  unfold codes
  rw [List.map_map]
  exact (List.map_congr_left hnumber).trans (List.map_id _)

/-- The codes are listed in ascending order. -/
theorem pairwise_codes : r.codes.Pairwise fun a b => a.number < b.number := by
  have hnumbers : (r.codes.map fun code => code.number.toNat).Pairwise (· < ·) := by
    rw [map_number_codes]
    exact List.pairwise_lt_range'
  rw [List.pairwise_map] at hnumbers
  exact hnumbers.imp UInt16.lt_iff_toNat_lt.mpr

/-- The codes that are listed are those in the range. -/
theorem mem_codes {code : PortfolioCode} : code ∈ r.codes ↔ r.contains code = true := by
  have hnumbers : code ∈ r.codes ↔
      code.number.toNat ∈ r.codes.map fun code => code.number.toNat := by
    constructor
    · intro hcode
      exact List.mem_map_of_mem hcode
    · intro hmem
      obtain ⟨other, hother, hsame⟩ := List.mem_map.mp hmem
      rw [← PortfolioCode.ext_number hsame]
      exact hother
  have hle := UInt16.le_iff_toNat_le.mp r.min_le_max
  rw [hnumbers, map_number_codes, List.mem_range'_1, contains_iff]
  omega

/-! ## Portfolios by ascending code -/

/-- Each portfolio has a lower code than the next. -/
def Ascending (portfolios : List Portfolio) : Prop :=
  portfolios.Pairwise fun a b => a.code.number < b.code.number

/-- The portfolio with a code. -/
def at? (portfolios : List Portfolio) (code : PortfolioCode) : Option Portfolio :=
  portfolios.find? fun portfolio => portfolio.code = code

variable {p q : Portfolio} {ps : List Portfolio}

/-- The first portfolio with a code is at the front or behind. -/
theorem at?_cons (code : PortfolioCode) :
    at? (q :: ps) code = if q.code = code then some q else at? ps code := by
  unfold at?
  by_cases h : q.code = code
  · rw [List.find?_cons_of_pos (by simpa using h), if_pos h]
  · rw [List.find?_cons_of_neg (by simpa using h), if_neg h]

/-- A portfolio that is put in is found at its code, and at other codes is what was there before. -/
theorem at?_insert (code : PortfolioCode) :
    at? (insert p ps) code = if p.code = code then some p else at? ps code := by
  induction ps with
  | nil => exact at?_cons code
  | cons q ps ih =>
    unfold insert
    by_cases hsame : p.code = q.code
    · -- The portfolio takes the place of the one with its code.
      rw [if_pos hsame, at?_cons, at?_cons, ← hsame]
      split_ifs <;> rfl
    · rw [if_neg hsame]
      by_cases hbefore : p.code.number < q.code.number
      · rw [if_pos hbefore]
        exact at?_cons code
      · rw [if_neg hbefore, at?_cons, ih, at?_cons]
        by_cases hq : q.code = code
        · have hp : p.code ≠ code := fun hp => hsame (hp.trans hq.symm)
          rw [if_pos hq, if_neg hp, if_pos hq]
        · rw [if_neg hq, if_neg hq]

/-- What is put in comes from the portfolio or from those before. -/
theorem mem_insert (h : q ∈ insert p ps) : q = p ∨ q ∈ ps := by
  induction ps with
  | nil => exact .inl (List.mem_singleton.mp h)
  | cons other ps ih =>
    unfold insert at h
    split_ifs at h with hsame hbefore
    · rcases List.mem_cons.mp h with h | h
      · exact .inl h
      · exact .inr (List.mem_cons_of_mem _ h)
    · rcases List.mem_cons.mp h with h | h
      · exact .inl h
      · exact .inr h
    · rcases List.mem_cons.mp h with rfl | h
      · exact .inr List.mem_cons_self
      · exact (ih h).imp_right (List.mem_cons_of_mem _)

/-- A portfolio is put in its place. -/
theorem Ascending.insert (h : Ascending ps) : Ascending (insert p ps) := by
  induction ps with
  | nil => exact List.pairwise_singleton _ _
  | cons other ps ih =>
    obtain ⟨hother, hps⟩ := List.pairwise_cons.mp h
    unfold Registry.insert
    split_ifs with hsame hbefore
    · refine List.pairwise_cons.mpr ⟨fun q hq => ?_, hps⟩
      rw [hsame]
      exact hother q hq
    · refine List.pairwise_cons.mpr ⟨fun q hq => ?_, h⟩
      rcases List.mem_cons.mp hq with rfl | hq
      · exact hbefore
      · exact UInt16.lt_trans hbefore (hother q hq)
    · have hafter : other.code.number < p.code.number := by
        have hne : p.code.number.toNat ≠ other.code.number.toNat := fun heq =>
          hsame (PortfolioCode.ext_number heq)
        rw [UInt16.lt_iff_toNat_lt] at hbefore ⊢
        omega
      refine List.pairwise_cons.mpr ⟨fun q hq => ?_, ih hps⟩
      rcases mem_insert hq with rfl | hq
      · exact hafter
      · exact hother q hq

/-- Where codes ascend, every portfolio is found at its code. -/
theorem mem_iff_at? (h : Ascending ps) : p ∈ ps ↔ at? ps p.code = some p := by
  induction ps with
  | nil => simp [at?]
  | cons q ps ih =>
    obtain ⟨hq, hps⟩ := List.pairwise_cons.mp h
    rw [at?_cons, List.mem_cons, ih hps]
    split_ifs with hcode
    · constructor
      · rintro (rfl | hfound)
        · rfl
        · -- No portfolio behind has the code of the first.
          have hlt := hq p ((ih hps).mpr hfound)
          rw [hcode] at hlt
          exact absurd hlt (UInt16.lt_irrefl _)
      · intro heq
        exact .inl (Option.some.inj heq).symm
    · constructor
      · rintro (rfl | hfound)
        · exact absurd rfl hcode
        · exact hfound
      · exact .inr

end Registry

/-! ## Attempts to register -/

/-- A name that is to be registered for a code. -/
structure Registration where
  code : Int
  name : String
deriving DecidableEq

/-- A registration that a registry of the range takes: the code lies in the range, and the name has
a character that is not white space. -/
def Registration.Fits (min max : UInt16) (w : Registration) : Prop :=
  (min.toNat : Int) ≤ w.code ∧ w.code ≤ max.toNat ∧ ∃ c ∈ w.name.toList, Text.isBlank c = false

instance (min max : UInt16) (w : Registration) : Decidable (w.Fits min max) :=
  inferInstanceAs (Decidable ((min.toNat : Int) ≤ w.code ∧ w.code ≤ max.toNat ∧
    ∃ c ∈ w.name.toList, Text.isBlank c = false))

/-- The portfolio that is registered last for a code, of those that fit the range. -/
def Registration.last? (min max : UInt16) (ws : List Registration) (code : PortfolioCode) :
    Option Portfolio :=
  (((ws.filter fun w => w.Fits min max).reverse.find? fun w =>
    w.code = (code.number.toNat : Int))).map fun w => ⟨code, w.name⟩

namespace Registry

/-- Attempts to register: what comes of it, and the registry afterwards. A registry that refuses
stays as it is. -/
def attempt (r : Registry) (w : Registration) : Except Failure Portfolio × Registry :=
  match r.register w.code w.name with
  | .ok (portfolio, after) => (.ok portfolio, after)
  | .error failure => (.error failure, r)

/-- The registry after attempts to register, one after the other. -/
def afterAttempts (r : Registry) (ws : List Registration) : Registry :=
  ws.foldl (fun r w => (r.attempt w).2) r

variable {r : Registry} {w : Registration}

/-- A name has a character that is not white space unless it is blank. -/
theorem blank_eq_false_iff {name : String} :
    Text.blank name = false ↔ ∃ c ∈ name.toList, Text.isBlank c = false := by
  unfold Text.blank
  rw [List.all_eq_false]
  simp only [Bool.not_eq_true]

/-- A fitting registration is taken: the portfolio is put in its place, and is found there. -/
theorem attempt_of_fits (h : w.Fits r.min r.max) :
    ∃ code : PortfolioCode, (code.number.toNat : Int) = w.code ∧ r.contains code = true ∧
      r.attempt w = (.ok ⟨code, w.name⟩,
        { r with portfolios := insert ⟨code, w.name⟩ r.portfolios }) := by
  obtain ⟨hmin, hmax, hname⟩ := h
  obtain ⟨code, hcheck⟩ := exists_check_iff.mpr ⟨hmin, hmax⟩
  obtain ⟨hnumber, hcontains⟩ := check_eq_ok_iff.mp hcheck
  refine ⟨code, hnumber, hcontains, ?_⟩
  have hfound : get? { r with portfolios := insert ⟨code, w.name⟩ r.portfolios } code =
      some ⟨code, w.name⟩ :=
    (at?_insert code).trans (if_pos rfl)
  unfold attempt register
  rw [hcheck]
  simp only [blank_eq_false_iff.mpr hname, Bool.false_eq_true, if_false, hfound]

/-- Any other registration is refused, for its code before its name. -/
theorem attempt_of_not_fits (h : ¬ w.Fits r.min r.max) : ∃ failure,
    r.attempt w = (.error failure, r) := by
  unfold attempt register
  cases hcheck : r.check w.code with
  | error failure => exact ⟨failure, rfl⟩
  | ok code =>
    obtain ⟨hmin, hmax⟩ := exists_check_iff.mp ⟨code, hcheck⟩
    have hblank : Text.blank w.name = true := by
      by_contra hname
      rw [Bool.not_eq_true, blank_eq_false_iff] at hname
      exact h ⟨hmin, hmax, hname⟩
    simp only [hblank, if_true]
    exact ⟨_, rfl⟩

/-- An attempt does not move the range. -/
theorem range_attempt (r : Registry) (w : Registration) :
    (r.attempt w).2.min = r.min ∧ (r.attempt w).2.max = r.max := by
  by_cases hfits : w.Fits r.min r.max
  · obtain ⟨code, -, -, hattempt⟩ := attempt_of_fits hfits
    rw [hattempt]
    exact ⟨rfl, rfl⟩
  · obtain ⟨failure, hattempt⟩ := attempt_of_not_fits hfits
    rw [hattempt]
    exact ⟨rfl, rfl⟩

/-- Attempts do not move the range. -/
theorem range_afterAttempts (r : Registry) (ws : List Registration) :
    (r.afterAttempts ws).min = r.min ∧ (r.afterAttempts ws).max = r.max := by
  induction ws generalizing r with
  | nil => exact ⟨rfl, rfl⟩
  | cons w ws ih =>
    obtain ⟨hmin, hmax⟩ := r.range_attempt w
    obtain ⟨hmin', hmax'⟩ := ih (r.attempt w).2
    exact ⟨hmin'.trans hmin, hmax'.trans hmax⟩

/-- What a registry that was made for a range has to be after attempts to register: a map that has
the last fitting registration of each code. -/
structure Keeps (min max : UInt16) (ws : List Registration) (r : Registry) : Prop where
  /-- The range is what it was made for. -/
  range : r.min = min ∧ r.max = max
  /-- The portfolios are listed by ascending code, and so each code once. -/
  ascending : Ascending r.portfolios
  /-- They are the ones that are found at their codes. -/
  listed : ∀ p, p ∈ r.portfolios ↔ r.get? p.code = some p
  /-- All of them lie in the range. -/
  inside : ∀ p ∈ r.portfolios, min ≤ p.code.number ∧ p.code.number ≤ max
  /-- At a code is the name that was registered for it last, if there is one. -/
  latest : ∀ code, r.get? code = Registration.last? min max ws code
  /-- The codes are listed in ascending order. -/
  codes_ascending : r.codes.Pairwise fun a b => a.number < b.number
  /-- They are those that an integer can be checked to be. -/
  codes_checked : ∀ n code, r.check n = .ok code ↔ code ∈ r.codes ∧ (code.number.toNat : Int) = n
  /-- A further registration succeeds exactly if it fits. -/
  succeeds : ∀ w, (∃ p, (r.attempt w).1 = .ok p) ↔ w.Fits min max
  /-- It gives the portfolio with the code and the name. -/
  gives : ∀ w p, (r.attempt w).1 = .ok p → (p.code.number.toNat : Int) = w.code ∧ p.name = w.name
  /-- One that fails leaves the registry as it was. -/
  refuses : ∀ w failure, (r.attempt w).1 = .error failure → (r.attempt w).2 = r

/-- One more attempt: what is found at a code. -/
theorem get?_attempt (code : PortfolioCode) : (r.attempt w).2.get? code =
    if w.Fits r.min r.max ∧ w.code = code.number.toNat then some ⟨code, w.name⟩
    else r.get? code := by
  by_cases hfits : w.Fits r.min r.max
  · obtain ⟨own, hnumber, -, hattempt⟩ := attempt_of_fits hfits
    rw [hattempt]
    show at? (insert ⟨own, w.name⟩ r.portfolios) code = _
    rw [at?_insert]
    by_cases hcode : own = code
    · subst hcode
      rw [if_pos rfl, if_pos ⟨hfits, hnumber.symm⟩]
    · have hne : ¬ w.code = code.number.toNat := fun heq =>
        hcode (PortfolioCode.ext_number (Int.ofNat_inj.mp (hnumber.trans heq)))
      rw [if_neg hcode, if_neg fun h => hne h.2]
      rfl
  · obtain ⟨failure, hattempt⟩ := attempt_of_not_fits hfits
    rw [hattempt, if_neg fun h => hfits h.1]

/-- One more attempt leaves portfolios of the range by ascending code. -/
theorem Ascending.attempt (h : Ascending r.portfolios) (w : Registration)
    (hinside : ∀ p ∈ r.portfolios, r.contains p.code = true) :
    Ascending (r.attempt w).2.portfolios ∧
      ∀ p ∈ (r.attempt w).2.portfolios, r.contains p.code = true := by
  by_cases hfits : w.Fits r.min r.max
  · obtain ⟨code, -, hcontains, hattempt⟩ := attempt_of_fits hfits
    rw [hattempt]
    refine ⟨h.insert, fun p hp => ?_⟩
    rcases mem_insert hp with rfl | hp
    · exact hcontains
    · exact hinside p hp
  · obtain ⟨failure, hattempt⟩ := attempt_of_not_fits hfits
    rw [hattempt]
    exact ⟨h, hinside⟩

/-- What is found at a code after attempts: the last fitting registration of the code, or what was
there before. -/
theorem get?_afterAttempts (ws : List Registration) (code : PortfolioCode) :
    (r.afterAttempts ws).get? code =
      (Registration.last? r.min r.max ws code).or (r.get? code) := by
  induction ws generalizing r with
  | nil => rfl
  | cons w ws ih =>
    obtain ⟨hmin, hmax⟩ := r.range_attempt w
    have hstep : r.afterAttempts (w :: ws) = (r.attempt w).2.afterAttempts ws := rfl
    rw [hstep, ih, hmin, hmax, get?_attempt]
    unfold Registration.last?
    rw [List.filter_cons]
    -- The first registration counts only if none of the later ones is for the code.
    by_cases hfits : w.Fits r.min r.max
    · by_cases hcode : w.code = code.number.toNat
      · simp [hfits, hcode, List.find?_append]
      · simp [hfits, hcode, List.find?_append]
    · simp [hfits]

/-- Attempts leave portfolios of the range by ascending code. -/
theorem Ascending.afterAttempts (h : Ascending r.portfolios) (ws : List Registration)
    (hinside : ∀ p ∈ r.portfolios, r.contains p.code = true) :
    Ascending (r.afterAttempts ws).portfolios ∧
      ∀ p ∈ (r.afterAttempts ws).portfolios, r.contains p.code = true := by
  induction ws generalizing r with
  | nil => exact ⟨h, hinside⟩
  | cons w ws ih =>
    obtain ⟨hmin, hmax⟩ := r.range_attempt w
    have hsame : ∀ code, (r.attempt w).2.contains code = r.contains code := fun code => by
      unfold contains
      rw [hmin, hmax]
    obtain ⟨hstep, hstep'⟩ := h.attempt w hinside
    obtain ⟨hrest, hrest'⟩ := ih hstep fun p hp => (hsame p.code).trans (hstep' p hp)
    exact ⟨hrest, fun p hp => (hsame p.code).symm.trans (hrest' p hp)⟩

/-- Whatever is attempted to be registered, a registry is a map from the codes of its range that has
the last fitting name of every code. -/
theorem registrations_are_kept {min max : UInt16} {start : Registry}
    (h : Registry.ofRange min max = .ok start) (ws : List Registration) :
    (start.afterAttempts ws).Keeps min max ws := by
  have hstart : start.min = min ∧ start.max = max ∧ start.portfolios = [] := by
    unfold ofRange at h
    split_ifs at h
    rw [← Except.ok.inj h]
    exact ⟨rfl, rfl, rfl⟩
  obtain ⟨rfl, rfl, hempty⟩ := hstart
  have hnone : ∀ code, start.get? code = none := fun code => by
    unfold get?
    rw [hempty]
    rfl
  obtain ⟨hascending, hinside⟩ := Ascending.afterAttempts (r := start)
    (by rw [hempty]; exact List.Pairwise.nil) ws (by rw [hempty]; simp)
  obtain ⟨hmin, hmax⟩ := start.range_afterAttempts ws
  refine ⟨⟨hmin, hmax⟩, hascending, fun p => mem_iff_at? hascending, fun p hp => ?_, fun code => ?_,
    pairwise_codes, fun n code => ?_, fun w => ?_, fun w p hp => ?_, fun w failure hw => ?_⟩
  · obtain ⟨hle, hle'⟩ := contains_iff.mp (hinside p hp)
    exact ⟨UInt16.le_iff_toNat_le.mpr hle, UInt16.le_iff_toNat_le.mpr hle'⟩
  · rw [get?_afterAttempts, hnone, Option.or_none]
  · rw [check_eq_ok_iff, mem_codes, and_comm]
  · rw [← hmin, ← hmax]
    constructor
    · rintro ⟨p, hp⟩
      by_contra hfits
      obtain ⟨failure, hattempt⟩ := attempt_of_not_fits hfits
      rw [hattempt] at hp
      exact nomatch hp
    · intro hfits
      obtain ⟨code, -, -, hattempt⟩ := attempt_of_fits hfits
      rw [hattempt]
      exact ⟨_, rfl⟩
  · by_cases hfits : w.Fits (start.afterAttempts ws).min (start.afterAttempts ws).max
    · obtain ⟨code, hnumber, -, hattempt⟩ := attempt_of_fits hfits
      rw [hattempt] at hp
      rw [← Except.ok.inj hp]
      exact ⟨hnumber, rfl⟩
    · obtain ⟨failure, hattempt⟩ := attempt_of_not_fits hfits
      rw [hattempt] at hp
      exact nomatch hp
  · by_cases hfits : w.Fits (start.afterAttempts ws).min (start.afterAttempts ws).max
    · obtain ⟨code, -, -, hattempt⟩ := attempt_of_fits hfits
      rw [hattempt] at hw
      exact nomatch hw
    · obtain ⟨_, hattempt⟩ := attempt_of_not_fits hfits
      rw [hattempt]

/-- Registrations for both ends of a range, of which one is replaced, among others that do not fit:
for codes that would be in the range if sixteen bits of them counted, and for a name of one
ideographic space. -/
def atBothEnds : List Registration :=
  [⟨65535, "Top"⟩, ⟨3, "North"⟩, ⟨65539, "Alias"⟩, ⟨-65533, "Alias"⟩, ⟨65535, "\u3000"⟩,
    ⟨3, "South"⟩, ⟨2, "Low"⟩]

/-- The registry of the codes from three up keeps the last name of either end. -/
theorem registrations_are_kept_at_both_ends : ∃ start, Registry.ofRange 3 65535 = .ok start ∧
    (start.afterAttempts atBothEnds).portfolios = [⟨⟨3⟩, "South"⟩, ⟨⟨65535⟩, "Top"⟩] ∧
    (start.afterAttempts atBothEnds).Keeps 3 65535 atBothEnds :=
  ⟨_, rfl, by decide, registrations_are_kept rfl _⟩

end Registry

end ReferenceMint
