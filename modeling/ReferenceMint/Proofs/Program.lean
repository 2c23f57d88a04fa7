import ReferenceMint.Program

/-!
# Composed programs

A program made of one program and then another does what they do one after the other, whether it is
run on its own (`Program.value_bind`) or put on top of another interface (`Program.lower_bind`).
What a run gives besides its journal is its value: the result and the state of the environment.
-/

namespace ReferenceMint.Program

variable {I J : Interface} {α β γ σ : Type}

/-- It makes no difference which two of three programs in a row are put together first. -/
theorem bind_assoc (p : Program I α) (f : α → Program I β) (g : β → Program I γ) :
    (p.bind f).bind g = p.bind fun a => (f a).bind g := by
  induction p with
  | done a => rfl
  | note entry rest ih =>
    simp only [bind]
    rw [ih]
  | call c next ih =>
    simp only [bind]
    congr
    funext reply
    exact ih reply

/-- On top of another interface, too, a program is followed by another. -/
theorem lower_bind (answer : (c : I.Call) → Program J (I.Reply c)) (p : Program I α)
    (f : α → Program I β) :
    (p.bind f).lower answer = (p.lower answer).bind fun a => (f a).lower answer := by
  induction p with
  | done a => rfl
  | note entry rest ih =>
    simp only [bind, lower]
    rw [ih]
  | call c next ih =>
    simp only [bind, lower]
    rw [bind_assoc]
    congr
    funext reply
    exact ih reply

/-- Journal entries in front of a program stay in front of it on top of another interface. -/
theorem lower_notes (answer : (c : I.Call) → Program J (I.Reply c)) (entries : List Journal.Entry)
    (p : Program I α) : (notes entries p).lower answer = notes entries (p.lower answer) := by
  induction entries with
  | nil => rfl
  | cons entry entries ih =>
    show Program.note entry ((notes entries p).lower answer) = _
    rw [ih]
    rfl

/-! ## The value of a run -/

/-- The result of a program that is run on its own, and the state of the environment afterwards. -/
def value (answer : (c : I.Call) → σ → I.Reply c × σ) : Program I α → σ → α × σ
  | .done a, s => (a, s)
  | .note _ rest, s => value answer rest s
  | .call c next, s => value answer (next (answer c s).1) (answer c s).2

/-- The calls that a program makes when it is run on its own. -/
def calls (answer : (c : I.Call) → σ → I.Reply c × σ) : Program I α → σ → List I.Call
  | .done _, _ => []
  | .note _ rest, s => calls answer rest s
  | .call c next, s => c :: calls answer (next (answer c s).1) (answer c s).2

/-- A run gives the value of the program, whatever stood in the journal before. -/
theorem runFrom_eq_value (answer : (c : I.Call) → σ → I.Reply c × σ) (p : Program I α)
    (written : List Journal.Entry) (s : σ) : (runFrom answer written p s).result =
      (p.value answer s).1 ∧ (runFrom answer written p s).state = (p.value answer s).2 := by
  induction p generalizing written s with
  | done a => exact ⟨rfl, rfl⟩
  | note entry rest ih => exact ih (entry :: written) s
  | call c next ih => exact ih _ written _

/-- The result of a run. -/
theorem result_run (answer : (c : I.Call) → σ → I.Reply c × σ) (p : Program I α) (s : σ) :
    (p.run answer s).result = (p.value answer s).1 := (runFrom_eq_value answer p [] s).1

/-- The state that a run leaves. -/
theorem state_run (answer : (c : I.Call) → σ → I.Reply c × σ) (p : Program I α) (s : σ) :
    (p.run answer s).state = (p.value answer s).2 := (runFrom_eq_value answer p [] s).2

/-- The second of two programs starts from what the first one gives. -/
theorem value_bind (answer : (c : I.Call) → σ → I.Reply c × σ) (p : Program I α)
    (f : α → Program I β) (s : σ) :
    (p.bind f).value answer s = (f (p.value answer s).1).value answer (p.value answer s).2 := by
  induction p generalizing s with
  | done a => rfl
  | note entry rest ih => exact ih s
  | call c next ih => exact ih _ _

/-- What every call keeps, a program keeps. -/
theorem value_keeps {answer : (c : I.Call) → σ → I.Reply c × σ} {P : σ → Prop}
    (step : ∀ c s, P s → P (answer c s).2) (p : Program I α) {s : σ} (hs : P s) :
    P (p.value answer s).2 := by
  induction p generalizing s with
  | done a => exact hs
  | note entry rest ih => exact ih hs
  | call c next ih => exact ih _ (step c s hs)

/-- Journal entries do not matter for the value. -/
theorem value_notes (answer : (c : I.Call) → σ → I.Reply c × σ) (entries : List Journal.Entry)
    (p : Program I α) (s : σ) : (notes entries p).value answer s = p.value answer s := by
  induction entries with
  | nil => rfl
  | cons entry entries ih => exact ih

/-- A change of the result changes only the result. -/
theorem value_map (answer : (c : I.Call) → σ → I.Reply c × σ) (f : α → β) (p : Program I α)
    (s : σ) : (p.map f).value answer s = (f (p.value answer s).1, (p.value answer s).2) :=
  value_bind answer p _ s

/-- On top of another interface, a program gives what it gives where its calls are answered by the
values of programs. -/
theorem value_lower (answer : (c : I.Call) → Program J (I.Reply c))
    (handle : (c : J.Call) → σ → J.Reply c × σ) (p : Program I α) (s : σ) :
    (p.lower answer).value handle s = p.value (fun c s => (answer c).value handle s) s := by
  induction p generalizing s with
  | done a => rfl
  | note entry rest ih => exact ih s
  | call c next ih =>
    unfold lower
    rw [value_bind]
    exact ih _ _

/-- A span does not matter for the value. -/
theorem value_within (answer : (c : I.Call) → σ → I.Reply c × σ) (span : Journal.Span)
    (p : Program I α) (s : σ) : (within span p).value answer s = p.value answer s :=
  value_bind answer p _ s

end ReferenceMint.Program
