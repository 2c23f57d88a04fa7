import ReferenceMint.Program

/-!
# Interleaving

Processes that share one environment run in turns: in each turn one of them makes its next call and
goes on up to the one after it. A schedule says whose turn it is, again and again. It may be
anything, so it may also leave a process out from some turn on, which is what happens to one that is
abandoned between two of its calls.
-/

namespace ReferenceMint

variable {I : Interface} {α σ : Type}

/-- The result of a program without calls left. -/
def Program.result? : Program I α → Option α
  | .done a => some a
  | .note _ rest => result? rest
  | .call _ _ => none

/-- A call that a process made, and the reply to it. -/
structure Turn (I : Interface) where
  /-- The number of the process. -/
  process : Nat
  call : I.Call
  reply : I.Reply call

/-- Processes and what they share. -/
structure Crowd (I : Interface) (α σ : Type) where
  /-- The processes, each as the program that is left of it. -/
  processes : List (Program I α)
  /-- The state of the environment. -/
  state : σ

namespace Crowd

/-- A turn of a program with the number `process`: the call, what is left of the program, and the
state after the call. A program without calls left does nothing. -/
def turn (answer : (c : I.Call) → σ → I.Reply c × σ) (process : Nat) :
    Program I α → σ → List (Turn I) × Program I α × σ
  | .done a, s => ([], .done a, s)
  | .note _ rest, s => turn answer process rest s
  | .call c next, s => ([⟨process, c, (answer c s).1⟩], next (answer c s).1, (answer c s).2)

/-- A turn of the process with the given number; a number without process has none. -/
def step (answer : (c : I.Call) → σ → I.Reply c × σ) (w : Crowd I α σ) (process : Nat) :
    List (Turn I) × Crowd I α σ :=
  match w.processes[process]? with
  | none => ([], w)
  | some p =>
    let (turns, p, state) := turn answer process p w.state
    (turns, ⟨w.processes.set process p, state⟩)

/-- The turns of a schedule, and what is left after them. -/
def run (answer : (c : I.Call) → σ → I.Reply c × σ) :
    (schedule : List Nat) → Crowd I α σ → List (Turn I) × Crowd I α σ
  | [], w => ([], w)
  | process :: schedule, w =>
    let (turns, w) := step answer w process
    let (later, w) := run answer schedule w
    (turns ++ later, w)

/-- The result of the process with the given number, once it is done. -/
def result? (w : Crowd I α σ) (process : Nat) : Option α :=
  w.processes[process]?.bind Program.result?

end Crowd

end ReferenceMint
