import Mathlib.Logic.Function.Basic
import Pinaivu.Async.Routine
import Pinaivu.Async.Run

namespace Async

variable {Op : Type} {Ans : Op → Type} {σ α β : Type}

/-- Which calls may be made in a state, and the state each answer leads to. -/
structure Typestate (Op : Type) (Ans : Op → Type) (σ : Type) where
  allowed : σ → Op → Prop
  advance : σ → (op : Op) → Ans op → σ

namespace Routine

/-- The routine makes only calls its state allows and ends in a state and with a result as in `ends`. -/
def Obeys (T : Typestate Op Ans σ) (ends : σ → α → Prop) : Routine Op Ans α → σ → Prop
  | .done a, s => ends s a
  | .call op next, s => T.allowed s op ∧ ∀ answer, (next answer).Obeys T ends (T.advance s op answer)

variable {T : Typestate Op Ans σ} {ends : σ → α → Prop} {s : σ}

theorem Obeys.seq {last : σ → β → Prop} {t : Routine Op Ans α} {f : α → Routine Op Ans β}
    (first : t.Obeys T ends s) (rest : ∀ s a, ends s a → (f a).Obeys T last s) : (t.bind f).Obeys T last s := by
  induction t generalizing s with
  | done a => exact rest s a first
  | call op next ih => exact ⟨first.1, fun answer => ih answer (first.2 answer)⟩

theorem Obeys.step {t : Routine Op Ans α} {op : Op} {next : Ans op → Routine Op Ans α}
    (obeys : t.Obeys T ends s) (shape : t = .call op next) (answer : Ans op) :
    T.allowed s op ∧ (next answer).Obeys T ends (T.advance s op answer) := by
  subst shape
  exact ⟨obeys.1, obeys.2 answer⟩

theorem Obeys.sat {guarantee : Op → Prop} {rely : (op : Op) → Ans op → Prop} {t : Routine Op Ans α}
    (obeys : t.Obeys T ends s) (implies : ∀ s op, T.allowed s op → guarantee op) :
    t.Sat guarantee rely fun _ => True := by
  induction t generalizing s with
  | done a => exact trivial
  | call op next ih => exact ⟨implies s op obeys.1, fun answer _ => ih answer (obeys.2 answer)⟩

theorem Sat.obeys {guarantee : Op → Prop} {result : α → Prop} {t : Routine Op Ans α}
    (sat : t.Sat guarantee (fun _ _ => True) result)
    (still : ∀ op, guarantee op → T.allowed s op ∧ ∀ answer, T.advance s op answer = s)
    (last : ∀ a, result a → ends s a) : t.Obeys T ends s := by
  induction t with
  | done a => exact last a sat
  | call op next ih =>
    obtain ⟨allowed, same⟩ := still op sat.1
    refine ⟨allowed, fun answer => ?_⟩
    rw [same answer]
    exact ih answer (sat.2 answer trivial)

end Routine

/-- Tasks that run against one shared state. -/
structure Pool (Id Op : Type) (Ans : Op → Type) (State : Type) where
  tasks : Id → Routine Op Ans Unit
  shared : State

namespace Pool

variable {Id State : Type} [DecidableEq Id]

inductive Label (Id Op : Type) (Ans : Op → Type) where
  | spawn (id : Id) (task : Routine Op Ans Unit)
  | call (id : Id) (op : Op) (answer : Ans op)

def setTask (p : Pool Id Op Ans State) (id : Id) (task : Routine Op Ans Unit) : Pool Id Op Ans State :=
  { p with tasks := Function.update p.tasks id task }

inductive Step (spawns : State → Id → Routine Op Ans Unit → Prop)
    (effect : State → (op : Op) → Ans op → State → Prop) :
    Pool Id Op Ans State → Label Id Op Ans → Pool Id Op Ans State → Prop where
  | spawn {p : Pool Id Op Ans State} {id : Id} {task : Routine Op Ans Unit} (free : p.tasks id = .done ())
      (known : spawns p.shared id task) : Step spawns effect p (.spawn id task) (p.setTask id task)
  | call {p : Pool Id Op Ans State} {id : Id} {op : Op} {next : Ans op → Routine Op Ans Unit}
      {answer : Ans op} {after : State} (waiting : p.tasks id = .call op next)
      (answered : effect p.shared op answer after) :
      Step spawns effect p (.call id op answer) ({ p with shared := after }.setTask id (next answer))

variable {spawns : State → Id → Routine Op Ans Unit → Prop} {effect : State → (op : Op) → Ans op → State → Prop}

theorem Step.call_at {tasks : Id → Routine Op Ans Unit} {id : Id} {state : State} (op : Op)
    {next : Ans op → Routine Op Ans Unit} (answer : Ans op) (after : State) (answered : effect state op answer after) :
    Step spawns effect ⟨Function.update tasks id (.call op next), state⟩ (.call id op answer)
      ⟨Function.update tasks id (next answer), after⟩ := by
  have step : Step spawns effect ⟨Function.update tasks id (.call op next), state⟩ _ _ :=
    .call (Function.update_self _ _ _) answered
  rwa [setTask, Function.update_idem] at step

variable {T : Id → Typestate Op Ans σ} {ends : Id → σ → Prop} {g : Id → σ}

def Obey (T : Id → Typestate Op Ans σ) (ends : Id → σ → Prop) (g : Id → σ) (p : Pool Id Op Ans State) :
    Prop :=
  ∀ id, (p.tasks id).Obeys (T id) (fun s _ => ends id s) (g id)

theorem Obey.setTask {p : Pool Id Op Ans State} (obey : Obey T ends g p) {id : Id}
    {task : Routine Op Ans Unit} {state : σ} (begins : task.Obeys (T id) (fun s _ => ends id s) state)
    (shared : State) : Obey T ends (Function.update g id state) ({ p with shared }.setTask id task) := by
  intro other
  by_cases own : other = id
  · subst other
    simpa only [Pool.setTask, Function.update_self] using begins
  · simpa only [Pool.setTask, Function.update_of_ne own] using obey other

theorem Obey.step {p p' : Pool Id Op Ans State} {label : Label Id Op Ans} (obey : Obey T ends g p)
    (step : Step spawns effect p label p') {fresh : σ}
    (begins : ∀ state id task, spawns state id task → task.Obeys (T id) (fun s _ => ends id s) fresh) :
    (∃ id task, label = .spawn id task ∧ ends id (g id) ∧ spawns p.shared id task ∧ p'.shared = p.shared ∧
      Obey T ends (Function.update g id fresh) p') ∨
    ∃ id op answer, label = .call id op answer ∧ (T id).allowed (g id) op ∧
      effect p.shared op answer p'.shared ∧
      Obey T ends (Function.update g id ((T id).advance (g id) op answer)) p' := by
  cases step with
  | @spawn id task free known =>
    have ended := obey id
    rw [free] at ended
    exact .inl ⟨id, task, rfl, ended, known, rfl, obey.setTask (begins p.shared id task known) p.shared⟩
  | @call id op next answer after waiting answered =>
    obtain ⟨allowed, rest⟩ := (obey id).step waiting answer
    exact .inr ⟨id, op, answer, rfl, allowed, answered, obey.setTask rest after⟩

end Pool

end Async
