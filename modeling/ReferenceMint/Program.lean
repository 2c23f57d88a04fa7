import ReferenceMint.Journal

/-!
# Programs

A program asks its environment for things, one call at a time, and goes on with each reply; in
between it writes its journal. What the calls are is an interface. A program says nothing about how
calls are answered, so the same program can be run on its own, in turns with others call by call, or
on top of another interface whose programs answer its calls.
-/

namespace ReferenceMint

/-- What a program may ask for. -/
structure Interface where
  Call : Type
  /-- What answers a call. -/
  Reply : Call → Type

/-- A program with a result of type `α`. -/
inductive Program (I : Interface) (α : Type) where
  /-- The program is done. -/
  | done (result : α)
  /-- The program writes its journal and goes on. -/
  | note (entry : Journal.Entry) (rest : Program I α)
  /-- The program makes a call and goes on with the reply. -/
  | call (c : I.Call) (next : I.Reply c → Program I α)

namespace Program

variable {I J : Interface} {α β σ : Type}

/-- One program and then another, which starts from the result of the first. -/
def bind : Program I α → (α → Program I β) → Program I β
  | .done a, f => f a
  | .note entry rest, f => .note entry (bind rest f)
  | .call c next, f => .call c fun reply => bind (next reply) f

/-- A program with its result changed. -/
def map (f : α → β) (p : Program I α) : Program I β := p.bind fun a => .done (f a)

/-- Entries of the journal in front of a program. -/
def notes (entries : List Journal.Entry) (p : Program I α) : Program I α :=
  entries.foldr .note p

/-- An event in front of a program. -/
def log (level : Journal.Level) (message : String) (fields : Journal.Fields) (p : Program I α) :
    Program I α :=
  .note (.event ⟨level, message, fields⟩) p

/-- A program within a span. -/
def within (span : Journal.Span) (p : Program I α) : Program I α :=
  .note (.enter span) (p.bind fun a => .note .leave (.done a))

/-- A program on top of another interface: its calls are answered by programs. -/
def lower (answer : (c : I.Call) → Program J (I.Reply c)) : Program I α → Program J α
  | .done a => .done a
  | .note entry rest => .note entry (lower answer rest)
  | .call c next => (answer c).bind fun reply => lower answer (next reply)

/-- What running a program leaves. -/
structure Outcome (α σ : Type) where
  /-- The result of the program. -/
  result : α
  /-- The journal, in the order of writing. -/
  journal : List Journal.Entry
  /-- The state of the environment. -/
  state : σ

/-- Runs a program on its own, where `answer` answers a call from a state and says which state
follows; `written` is the journal so far, the latest entry first. -/
def runFrom (answer : (c : I.Call) → σ → I.Reply c × σ) (written : List Journal.Entry) :
    Program I α → σ → Outcome α σ
  | .done a, s => ⟨a, written.reverse, s⟩
  | .note entry rest, s => runFrom answer (entry :: written) rest s
  | .call c next, s => runFrom answer written (next (answer c s).1) (answer c s).2

/-- Runs a program on its own, with a new journal. -/
def run (answer : (c : I.Call) → σ → I.Reply c × σ) (p : Program I α) (s : σ) : Outcome α σ :=
  runFrom answer [] p s

end Program

end ReferenceMint
