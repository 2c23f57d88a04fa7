import Mathlib.Tactic.Common
import ReferenceMint.Interleaving
import ReferenceMint.Proofs.Program

/-!
# Programs in a crowd

The turns that processes took determine the state of what they share (`replay`). So what there is to
say about a process in a crowd is a property of the turns so far: its `stage`, which says what holds
while the process is under way and what holds once it has a result. It must be `Steady`: turns of
others do not end it.

`Program.Obeys` says that a program keeps to a stage, whatever turns others take between its own
calls. This is shown along the program, as for a program on its own. `Crowd.staged_run` then says
that under every schedule every process is at its stage, and `Crowd.staged_run_after` says so of a
crowd that finds what earlier turns have left.
-/

namespace ReferenceMint

variable {I : Interface} {α β σ : Type}

/-- The state that turns lead to. -/
def replay (answer : (c : I.Call) → σ → I.Reply c × σ) (start : σ) (turns : List (Turn I)) : σ :=
  turns.foldl (fun s t => (answer t.call s).2) start

/-- The turns of others: none of them is taken by the process. -/
def Others (process : Nat) (turns : List (Turn I)) : Prop := ∀ t ∈ turns, t.process ≠ process

/-- Each reply is the one that the turns before it lead to. -/
def Genuine (answer : (c : I.Call) → σ → I.Reply c × σ) (start : σ) (turns : List (Turn I)) :
    Prop :=
  ∀ k t, turns[k]? = some t → t.reply = (answer t.call (replay answer start (turns.take k))).1

/-- What holds of the turns so far while a process is under way, and with its result. -/
abbrev Stage (I : Interface) (α : Type) := Option α → List (Turn I) → Prop

/-- The stage that says how a process ends, and nothing before. -/
def Stage.ending (ends : α → List (Turn I) → Prop) : Stage I α
  | none, _ => True
  | some a, turns => ends a turns

/-- The stage that says how a process has ended, with turns of others afterwards. -/
def Stage.ended (process : Nat) (ends : α → List (Turn I) → Prop) : Stage I α
  | none, _ => True
  | some a, turns => ∃ now later, turns = now ++ later ∧ Others process later ∧ ends a now

/-- Turns of others do not end a stage of the process. -/
def Stage.Steady (process : Nat) (stage : Stage I α) : Prop :=
  ∀ result turns later, Others process later → stage result turns → stage result (turns ++ later)

/-- From the turns so far on, the program keeps to the stage, whatever turns others take before each
of its calls. -/
def Program.Obeys (answer : (c : I.Call) → σ → I.Reply c × σ) (start : σ) (process : Nat)
    (stage : Stage I α) : Program I α → List (Turn I) → Prop
  | .done a, turns => stage (some a) turns
  | .note _ rest, turns => Obeys answer start process stage rest turns
  | .call c next, turns => stage none turns ∧ ∀ later, Others process later →
    let reply := (answer c (replay answer start (turns ++ later))).1
    Obeys answer start process stage (next reply) (turns ++ later ++ [⟨process, c, reply⟩])

/-! ## Turns -/

section Turns

variable {answer : (c : I.Call) → σ → I.Reply c × σ} {start : σ}

/-- Turns lead on from where the turns before them led. -/
theorem replay_append (turns later : List (Turn I)) :
    replay answer start (turns ++ later) = replay answer (replay answer start turns) later :=
  List.foldl_append

/-- One more turn. -/
theorem replay_concat (turns : List (Turn I)) (t : Turn I) :
    replay answer start (turns ++ [t]) = (answer t.call (replay answer start turns)).2 := by
  rw [replay_append]
  rfl

/-- A turn with the reply that the turns before lead to is genuine. -/
theorem genuine_concat {turns : List (Turn I)} {t : Turn I} (h : Genuine answer start turns)
    (ht : t.reply = (answer t.call (replay answer start turns)).1) :
    Genuine answer start (turns ++ [t]) := by
  intro k u hu
  -- A place is that of an earlier turn, of the new one, or of none.
  rcases Nat.lt_trichotomy k turns.length with hk | rfl | hk
  · rw [List.getElem?_append_left hk] at hu
    rw [List.take_append_of_le_length (Nat.le_of_lt hk)]
    exact h k u hu
  · obtain rfl : t = u := by simpa using hu
    simpa using ht
  · rw [List.getElem?_eq_none (by simp; omega)] at hu
    exact absurd hu (by simp)

/-- Turns of others stay such with more of them. -/
theorem Others.append {process : Nat} {turns later : List (Turn I)} (h : Others process turns)
    (hlater : Others process later) : Others process (turns ++ later) := by
  intro t ht
  rcases List.mem_append.mp ht with ht | ht
  · exact h t ht
  · exact hlater t ht

/-- How a process has ended is steady. -/
theorem Stage.steady_ended {process : Nat} {ends : α → List (Turn I) → Prop} :
    (Stage.ended process ends).Steady process := by
  intro result turns more hmore h
  cases result with
  | none => trivial
  | some a =>
    obtain ⟨now, later, rfl, hlater, hends⟩ := h
    exact ⟨now, later ++ more, List.append_assoc now later more, hlater.append hmore, hends⟩

end Turns

/-! ## Programs that keep to a stage -/

namespace Program

variable {answer : (c : I.Call) → σ → I.Reply c × σ} {start : σ} {process : Nat}

/-- A program in a stage is as far as its result says. -/
theorem Obeys.stage {stage : Stage I α} {p : Program I α} {turns : List (Turn I)}
    (h : p.Obeys answer start process stage turns) : stage p.result? turns := by
  induction p with
  | done a => exact h
  | note entry rest ih => exact ih h
  | call c next ih => exact h.1

/-- A call keeps to a stage that holds before it, if the program goes on so with every reply that it
may get. -/
theorem obeys_call {stage : Stage I α} {c : I.Call} {next : I.Reply c → Program I α}
    {turns : List (Turn I)} (hnone : stage none turns)
    (hnext : ∀ later, Others process later → ∀ reply,
      reply = (answer c (replay answer start (turns ++ later))).1 →
      (next reply).Obeys answer start process stage (turns ++ later ++ [⟨process, c, reply⟩])) :
    (call c next).Obeys answer start process stage turns :=
  ⟨hnone, fun later hlater => hnext later hlater _ rfl⟩

/-- Turns of others do not matter. -/
theorem Obeys.append {stage : Stage I α} (steady : stage.Steady process) {p : Program I α}
    {turns later : List (Turn I)} (h : p.Obeys answer start process stage turns)
    (hlater : Others process later) : p.Obeys answer start process stage (turns ++ later) := by
  induction p with
  | done a => exact steady _ _ _ hlater h
  | note entry rest ih => exact ih h
  | call c next ih =>
    refine ⟨steady _ _ _ hlater h.1, fun more hmore => ?_⟩
    -- These turns come on top of those that the call allows for anyway.
    rw [List.append_assoc turns later more]
    exact h.2 (later ++ more) (hlater.append hmore)

/-- A program keeps to a stage that holds of everything. -/
theorem obeys_of_forall {stage : Stage I α} (h : ∀ result turns, stage result turns)
    {p : Program I α} {turns : List (Turn I)} : p.Obeys answer start process stage turns := by
  induction p generalizing turns with
  | done a => exact h _ _
  | note entry rest ih => exact ih
  | call c next ih => exact ⟨h _ _, fun later hlater => ih _⟩

/-- A program that keeps to a stage keeps to every wider one. -/
theorem Obeys.mono {stage wider : Stage I α} {p : Program I α} {turns : List (Turn I)}
    (h : p.Obeys answer start process stage turns)
    (hwider : ∀ result turns, stage result turns → wider result turns) :
    p.Obeys answer start process wider turns := by
  induction p generalizing turns with
  | done a => exact hwider _ _ h
  | note entry rest ih => exact ih h
  | call c next ih => exact ⟨hwider _ _ h.1, fun later hlater => ih _ (h.2 later hlater)⟩

/-- A program that keeps to two stages keeps to both at once. -/
theorem Obeys.and {stage other : Stage I α} {p : Program I α} {turns : List (Turn I)}
    (h : p.Obeys answer start process stage turns) (h' : p.Obeys answer start process other turns) :
    p.Obeys answer start process (fun result turns => stage result turns ∧ other result turns)
      turns := by
  induction p generalizing turns with
  | done a => exact ⟨h, h'⟩
  | note entry rest ih => exact ih h h'
  | call c next ih =>
    exact ⟨⟨h.1, h'.1⟩, fun later hlater => ih _ (h.2 later hlater) (h'.2 later hlater)⟩

/-- Journal entries do not matter. -/
theorem obeys_notes {stage : Stage I α} {p : Program I α} {turns : List (Turn I)}
    (entries : List Journal.Entry) (h : p.Obeys answer start process stage turns) :
    (notes entries p).Obeys answer start process stage turns := by
  induction entries with
  | nil => exact h
  | cons entry entries ih => exact ih

/-- A program and then another keep to a stage, if the first keeps to a stage of its own that is
within it while it is under way, and the second goes on from the result. -/
theorem Obeys.bind {first : Stage I α} {stage : Stage I β} {p : Program I α}
    {f : α → Program I β} {turns : List (Turn I)} (h : p.Obeys answer start process first turns)
    (hnone : ∀ turns, first none turns → stage none turns)
    (hsome : ∀ a turns, first (some a) turns → (f a).Obeys answer start process stage turns) :
    (p.bind f).Obeys answer start process stage turns := by
  induction p generalizing turns with
  | done a => exact hsome a turns h
  | note entry rest ih => exact ih h
  | call c next ih => exact ⟨hnone turns h.1, fun later hlater => ih _ (h.2 later hlater)⟩

/-- A program that comes to an end has come to it. -/
theorem Obeys.ended {ends : α → List (Turn I) → Prop} {p : Program I α} {turns : List (Turn I)}
    (h : p.Obeys answer start process (.ending ends) turns) :
    p.Obeys answer start process (.ended process ends) turns := by
  apply h.mono
  intro result turns h
  cases result with
  | none => trivial
  | some a => exact ⟨turns, [], (List.append_nil turns).symm, fun t ht => by simp at ht, h⟩

/-- A program and then another come to an end, if the second comes to it from every end of the
first. -/
theorem Obeys.bind_ending {first : α → List (Turn I) → Prop} {ends : β → List (Turn I) → Prop}
    {p : Program I α} {f : α → Program I β} {turns : List (Turn I)}
    (h : p.Obeys answer start process (.ending first) turns)
    (hnext : ∀ a turns, first a turns → (f a).Obeys answer start process (.ending ends) turns) :
    (p.bind f).Obeys answer start process (.ending ends) turns :=
  h.bind (fun _ _ => trivial) hnext

/-- A program that is run on its own ends in its stage, after turns of its own. -/
theorem Obeys.value {stage : Stage I α} {p : Program I α} {turns : List (Turn I)}
    (h : p.Obeys answer start process stage turns) : ∃ own : List (Turn I),
      (∀ t ∈ own, t.process = process) ∧
      (Genuine answer start turns → Genuine answer start (turns ++ own)) ∧
      stage (some (p.value answer (replay answer start turns)).1) (turns ++ own) := by
  induction p generalizing turns with
  | done a =>
    refine ⟨[], by simp, ?_, ?_⟩
    · rw [List.append_nil]
      exact id
    · rw [List.append_nil]
      exact h
  | note entry rest ih => exact ih h
  | call c next ih =>
    -- Nobody comes before the call.
    have hrest := h.2 [] (by simp [Others])
    simp only [List.append_nil] at hrest
    obtain ⟨own, hown, hgenuine, hstage⟩ := ih _ hrest
    rw [replay_concat] at hstage
    rw [List.append_assoc] at hgenuine hstage
    refine ⟨_, ?_, fun h => hgenuine (genuine_concat h rfl), hstage⟩
    intro t ht
    rcases List.mem_cons.mp ht with rfl | ht
    · rfl
    · exact hown t ht

/-- A program with its result changed. -/
theorem Obeys.map {first : Stage I α} {stage : Stage I β} {p : Program I α} {f : α → β}
    {turns : List (Turn I)} (h : p.Obeys answer start process first turns)
    (hnone : ∀ turns, first none turns → stage none turns)
    (hsome : ∀ a turns, first (some a) turns → stage (some (f a)) turns) :
    (p.map f).Obeys answer start process stage turns :=
  h.bind hnone hsome

end Program

/-! ## Crowds -/

namespace Crowd

variable {answer : (c : I.Call) → σ → I.Reply c × σ} {start : σ}

/-- A turn of a program leads to the state that it says, it is genuine, and the rest of the program
still keeps to its stage. -/
theorem turn_spec {process : Nat} {stage : Stage I α} {p : Program I α} {turns : List (Turn I)}
    (h : p.Obeys answer start process stage turns) {new : List (Turn I)} {rest : Program I α}
    {s : σ} (hturn : turn answer process p (replay answer start turns) = (new, rest, s)) :
    s = replay answer start (turns ++ new) ∧ rest.Obeys answer start process stage (turns ++ new) ∧
      (∀ t ∈ new, t.process = process) ∧
      (Genuine answer start turns → Genuine answer start (turns ++ new)) := by
  induction p with
  | done a =>
    simp only [turn, Prod.mk.injEq] at hturn
    obtain ⟨rfl, rfl, rfl⟩ := hturn
    simpa using h
  | note entry rest ih => exact ih h hturn
  | call c next ih =>
    simp only [turn, Prod.mk.injEq] at hturn
    obtain ⟨rfl, rfl, rfl⟩ := hturn
    -- The call is made at once, so nobody comes in between.
    have hrest := h.2 [] (by simp [Others])
    simp only [List.append_nil] at hrest
    refine ⟨by rw [replay_concat], hrest, by simp, fun hgenuine => genuine_concat hgenuine rfl⟩

/-- What holds of a crowd after turns: they lead to its state, they are genuine turns of processes
that there are, and every process keeps to its stage. -/
structure After (answer : (c : I.Call) → σ → I.Reply c × σ) (start : σ) (stage : Nat → Stage I α)
    (turns : List (Turn I)) (w : Crowd I α σ) : Prop where
  /-- The turns lead to the state. -/
  state : w.state = replay answer start turns
  /-- Each reply is the one that the turns before it lead to. -/
  genuine : Genuine answer start turns
  /-- Each turn is that of a process. -/
  present : ∀ t ∈ turns, t.process < w.processes.length
  /-- Each process keeps to its stage. -/
  obeys : ∀ i (p : Program I α), w.processes[i]? = some p → p.Obeys answer start i (stage i) turns

/-- One more turn. -/
theorem After.step {stage : Nat → Stage I α} (steady : ∀ i, (stage i).Steady i)
    {turns : List (Turn I)} {w : Crowd I α σ} (h : After answer start stage turns w)
    (process : Nat) : After answer start stage (turns ++ (w.step answer process).1)
      (w.step answer process).2 := by
  unfold Crowd.step
  cases hp : w.processes[process]? with
  | none => simpa using h
  | some p =>
    rcases hturn : turn answer process p w.state with ⟨new, rest, s⟩
    simp only [hturn]
    -- The process goes on from what all turns so far have led to.
    rw [h.state] at hturn
    obtain ⟨hstate, hrest, hown, hgenuine⟩ := turn_spec (h.obeys process p hp) hturn
    have hlt : process < w.processes.length := (List.getElem?_eq_some_iff.mp hp).1
    refine ⟨hstate, hgenuine h.genuine, ?_, ?_⟩
    · intro t ht
      rw [List.length_set]
      rcases List.mem_append.mp ht with ht | ht
      · exact h.present t ht
      · rw [hown t ht]
        exact hlt
    · intro i q hq
      by_cases hi : process = i
      · subst hi
        rw [List.getElem?_set_self hlt] at hq
        obtain rfl := Option.some.inj hq
        exact hrest
      · -- For any other process this is a turn of somebody else.
        rw [List.getElem?_set_ne hi] at hq
        exact (h.obeys i q hq).append (steady i) fun t ht => by
          rw [hown t ht]
          exact hi

/-- All turns of a schedule. -/
theorem After.run {stage : Nat → Stage I α} (steady : ∀ i, (stage i).Steady i)
    (schedule : List Nat) {turns : List (Turn I)} {w : Crowd I α σ}
    (h : After answer start stage turns w) :
    After answer start stage (turns ++ (w.run answer schedule).1) (w.run answer schedule).2 := by
  induction schedule generalizing turns w with
  | nil => simpa [Crowd.run] using h
  | cons process schedule ih =>
    have hafter := ih (h.step steady process)
    rw [List.append_assoc] at hafter
    exact hafter

/-- Under every schedule every process of a crowd is at its stage, if each program keeps to its
stage from the beginning. -/
theorem after_run {stage : Nat → Stage I α} (steady : ∀ i, (stage i).Steady i)
    {programs : List (Program I α)}
    (h : ∀ i (p : Program I α), programs[i]? = some p → p.Obeys answer start i (stage i) [])
    (schedule : List Nat) : After answer start stage (run answer schedule ⟨programs, start⟩).1
      (run answer schedule ⟨programs, start⟩).2 := by
  have hstart : After answer start stage [] (⟨programs, start⟩ : Crowd I α σ) :=
    ⟨rfl, by simp [Genuine], by simp, h⟩
  exact hstart.run steady schedule

/-- A schedule and then another one go on from where the first has led. -/
theorem run_append (schedule more : List Nat) (w : Crowd I α σ) :
    w.run answer (schedule ++ more) =
      ((w.run answer schedule).1 ++ ((w.run answer schedule).2.run answer more).1,
        ((w.run answer schedule).2.run answer more).2) := by
  induction schedule generalizing w with
  | nil => rfl
  | cons process schedule ih =>
    show ((w.step answer process).1 ++ ((w.step answer process).2.run answer (schedule ++ more)).1,
      ((w.step answer process).2.run answer (schedule ++ more)).2) = _
    rw [ih]
    exact Prod.ext (List.append_assoc _ _ _).symm rfl

/-- The number of processes does not change. -/
theorem length_run (schedule : List Nat) (w : Crowd I α σ) :
    (w.run answer schedule).2.processes.length = w.processes.length := by
  induction schedule generalizing w with
  | nil => rfl
  | cons process schedule ih =>
    refine (ih (w.step answer process).2).trans ?_
    unfold step
    cases w.processes[process]? with
    | none => rfl
    | some p => exact List.length_set

/-! ## Crowds with a job for each process -/

/-- What holds after turns of processes that each do a job: they lead to the state, they are genuine
turns, each of them belongs to a job, and each process is at the stage of its job. -/
structure Staged {κ : Type} (answer : (c : I.Call) → σ → I.Reply c × σ) (start : σ) (jobs : List κ)
    (stage : κ → Nat → Stage I α) (turns : List (Turn I)) (w : Crowd I α σ) : Prop where
  /-- The turns lead to the state. -/
  state : w.state = replay answer start turns
  /-- Each reply is the one that the turns before it lead to. -/
  genuine : Genuine answer start turns
  /-- Each turn belongs to a job. -/
  present : ∀ t ∈ turns, ∃ job, jobs[t.process]? = some job
  /-- Each result belongs to a job. -/
  staffed : ∀ i a, w.result? i = some a → ∃ job, jobs[i]? = some job
  /-- Each process is at the stage of its job. -/
  stage : ∀ (i : Nat) job, jobs[i]? = some job → stage job i (w.result? i) turns

/-- Under every schedule every process is at the stage of its job, if the program of each job keeps
to its stage from the beginning. -/
theorem staged_run {κ : Type} {jobs : List κ} {program : κ → Program I α}
    {stage : κ → Nat → Stage I α} (steady : ∀ job i, (stage job i).Steady i)
    (obeys : ∀ job i, (program job).Obeys answer start i (stage job i) []) (schedule : List Nat) :
    Staged answer start jobs stage (run answer schedule ⟨jobs.map program, start⟩).1
      (run answer schedule ⟨jobs.map program, start⟩).2 := by
  -- The stage of a place is that of the job there, if there is a job.
  have hafter : After answer start
      (fun i result turns => ∀ job, jobs[i]? = some job → stage job i result turns)
      (run answer schedule ⟨jobs.map program, start⟩).1
      (run answer schedule ⟨jobs.map program, start⟩).2 := by
    apply after_run
    · intro i result turns later hlater h job hjob
      exact steady job i _ _ _ hlater (h job hjob)
    · intro i p hp
      rw [List.getElem?_map, Option.map_eq_some_iff] at hp
      obtain ⟨job, hjob, rfl⟩ := hp
      apply (obeys job i).mono
      intro result turns h other hother
      obtain rfl : job = other := Option.some.inj (hjob.symm.trans hother)
      exact h
  have hlength : (run answer schedule ⟨jobs.map program, start⟩).2.processes.length =
      jobs.length := by
    rw [length_run]
    exact List.length_map _
  refine ⟨hafter.state, hafter.genuine, ?_, ?_, ?_⟩
  · intro t ht
    have hlt := hafter.present t ht
    rw [hlength] at hlt
    exact ⟨_, List.getElem?_eq_getElem hlt⟩
  · intro i a ha
    obtain ⟨p, hp, -⟩ := Option.bind_eq_some_iff.mp ha
    have hlt := (List.getElem?_eq_some_iff.mp hp).1
    rw [hlength] at hlt
    exact ⟨_, List.getElem?_eq_getElem hlt⟩
  · intro i job hjob
    have hlt := (List.getElem?_eq_some_iff.mp hjob).1
    rw [← hlength] at hlt
    have hp := List.getElem?_eq_getElem hlt
    unfold result?
    rw [hp]
    exact (hafter.obeys i _ hp).stage job hjob

end Crowd

/-! ## Crowds that find something -/

/-- The turns of a process that makes calls one after the other, with nobody else around. -/
def turnsOf (answer : (c : I.Call) → σ → I.Reply c × σ) (process : Nat) :
    List I.Call → σ → List (Turn I)
  | [], _ => []
  | c :: calls, s => ⟨process, c, (answer c s).1⟩ :: turnsOf answer process calls (answer c s).2

section

variable {answer : (c : I.Call) → σ → I.Reply c × σ} {start : σ}

/-- Genuine turns from where genuine turns lead to are genuine from where those started. -/
theorem Genuine.append {turns later : List (Turn I)} (h : Genuine answer start turns)
    (hlater : Genuine answer (replay answer start turns) later) :
    Genuine answer start (turns ++ later) := by
  intro k t ht
  rcases Nat.lt_or_ge k turns.length with hk | hk
  · rw [List.getElem?_append_left hk] at ht
    rw [List.take_append_of_le_length (Nat.le_of_lt hk)]
    exact h k t ht
  · rw [List.getElem?_append_right hk] at ht
    rw [List.take_append, List.take_of_length_le hk, replay_append]
    exact hlater _ t ht

/-- Turns of a process on its own are genuine. -/
theorem genuine_turnsOf (process : Nat) (calls : List I.Call) :
    Genuine answer start (turnsOf answer process calls start) := by
  induction calls generalizing start with
  | nil => intro k t ht; simp [turnsOf] at ht
  | cons c calls ih =>
    have hfirst : Genuine answer start ([] ++ [⟨process, c, (answer c start).1⟩]) :=
      genuine_concat (fun k t ht => by simp at ht) rfl
    exact hfirst.append ih

/-- Turns of a process on its own are turns of the process. -/
theorem process_of_mem_turnsOf {process : Nat} {calls : List I.Call} {t : Turn I}
    (h : t ∈ turnsOf answer process calls start) : t.process = process := by
  induction calls generalizing start with
  | nil => simp [turnsOf] at h
  | cons c calls ih =>
    rcases List.mem_cons.mp h with rfl | h
    · rfl
    · exact ih h

/-- A program that keeps to a stage after some turns does so from where they lead to. -/
theorem Program.Obeys.after {process : Nat} {stage : Stage I α} {p : Program I α}
    {before turns : List (Turn I)} (h : p.Obeys answer start process stage (before ++ turns)) :
    p.Obeys answer (replay answer start before) process
      (fun result turns => stage result (before ++ turns)) turns := by
  induction p generalizing turns with
  | done a => exact h
  | note entry rest ih => exact ih h
  | call c next ih =>
    refine ⟨h.1, fun later hlater => ih _ ?_⟩
    have hnext := h.2 later hlater
    rw [← replay_append, ← List.append_assoc, ← List.append_assoc, ← List.append_assoc]
    exact hnext

end

namespace Crowd

variable {answer : (c : I.Call) → σ → I.Reply c × σ} {start : σ}

/-- What holds after the turns of a crowd that comes after other turns: all turns together lead to
the state, they are genuine, and each process of the crowd is at the stage of its job. -/
structure StagedAfter {κ : Type} (answer : (c : I.Call) → σ → I.Reply c × σ) (start : σ)
    (jobs : List κ) (stage : κ → Nat → Stage I α) (before turns : List (Turn I))
    (w : Crowd I α σ) : Prop where
  /-- All turns lead to the state. -/
  state : w.state = replay answer start (before ++ turns)
  /-- Each reply is the one that the turns before it lead to. -/
  genuine : Genuine answer start (before ++ turns)
  /-- Each turn of the crowd belongs to a job. -/
  present : ∀ t ∈ turns, ∃ job, jobs[t.process]? = some job
  /-- Each result belongs to a job. -/
  staffed : ∀ i a, w.result? i = some a → ∃ job, jobs[i]? = some job
  /-- Each process is at the stage of its job. -/
  stage : ∀ (i : Nat) job, jobs[i]? = some job → stage job i (w.result? i) (before ++ turns)

/-- Under every schedule every process of a crowd that comes after other turns is at the stage of
its job, if the program of each job keeps to its stage from those turns on. -/
theorem staged_run_after {κ : Type} {jobs : List κ} {program : κ → Program I α}
    {stage : κ → Nat → Stage I α} {before : List (Turn I)}
    (steady : ∀ job i, (stage job i).Steady i) (hbefore : Genuine answer start before)
    (obeys : ∀ job i, jobs[i]? = some job →
      (program job).Obeys answer start i (stage job i) before)
    (schedule : List Nat) :
    StagedAfter answer start jobs stage before
      (run answer schedule ⟨jobs.map program, replay answer start before⟩).1
      (run answer schedule ⟨jobs.map program, replay answer start before⟩).2 := by
  -- The turns before are put in front of the turns that a stage speaks of.
  have hstaged : Staged answer (replay answer start before) jobs
      (fun job i result turns => jobs[i]? = some job → stage job i result (before ++ turns))
      (run answer schedule ⟨jobs.map program, replay answer start before⟩).1
      (run answer schedule ⟨jobs.map program, replay answer start before⟩).2 := by
    apply staged_run
    · intro job i result turns later hlater h hjob
      rw [← List.append_assoc]
      exact steady job i _ _ _ hlater (h hjob)
    · intro job i
      by_cases hjob : jobs[i]? = some job
      · have hobeys := obeys job i hjob
        rw [← List.append_nil before] at hobeys
        exact hobeys.after.mono fun result turns h _ => h
      · exact Program.obeys_of_forall fun result turns h => absurd h hjob
  refine ⟨?_, hbefore.append hstaged.genuine, hstaged.present, hstaged.staffed, ?_⟩
  · rw [replay_append]
    exact hstaged.state
  · intro i job hjob
    exact hstaged.stage i job hjob hjob

end Crowd

end ReferenceMint
