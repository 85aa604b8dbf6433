import Pinaivu.Async.Typestate
import Pinaivu.Coordinator.Tasks

namespace Coordinator

open Protocol Crypto Async

variable {C : Primitives} {X : Externals} {σ : Type}

/-- How a task is followed through a run: its calls, its last states, and the state it begins in. -/
structure Tracking (C : Primitives) (σ : Type) where
  typestate : Typestate Call Answer σ
  ends : σ → Prop
  fresh : World C → Label → σ

namespace Tracking

variable (T : Tracking C σ) {id : TaskId} {initial : σ}

def next (id : TaskId) (state : σ) (step : World C × Label) : σ :=
  match step.2 with
  | .call other op answer => if other = id then T.typestate.advance state op answer else state
  | label => if label.starts = some id then T.fresh step.1 label else state

def state (id : TaskId) (initial : σ) (trace : List (World C × Label)) : σ :=
  trace.foldl (T.next id) initial

def Obeyed (task : Task Unit) (state : σ) : Prop :=
  task.Obeys T.typestate (fun s _ => T.ends s) state

theorem state_snoc (id : TaskId) (initial : σ) (trace : List (World C × Label)) (step : World C × Label) :
    T.state id initial (trace ++ [step]) = T.next id (T.state id initial trace) step := by
  rw [state, List.foldl_append]
  rfl

theorem next_call (state : σ) (m : World C) (op : Call) (answer : Answer op) :
    T.next id state (m, .call id op answer) = T.typestate.advance state op answer := if_pos rfl

theorem next_starts (state : σ) (m : World C) {label : Label} (starts : label.starts = some id) :
    T.next id state (m, label) = T.fresh m label := by
  cases label with
  | call other op answer => cases starts
  | _ => exact if_pos starts

theorem next_other (state : σ) (m : World C) {label : Label} (starts : label.starts ≠ some id)
    (calls : ∀ op answer, label ≠ .call id op answer) : T.next id state (m, label) = state := by
  cases label with
  | call other op answer =>
    refine if_neg ?_
    intro same
    subst same
    exact calls op answer rfl
  | receive k rx bid => rfl
  | external command => rfl
  | _ => exact if_neg starts

theorem obeyed_step {m n : World C} {label : Label} {state : σ} (obeyed : T.Obeyed (m.tasks id) state)
    (step : Step X m label n)
    (begins : ∀ task, Begins X m label id task → T.Obeyed task (T.fresh m label)) :
    T.Obeyed (n.tasks id) (T.next id state (m, label)) := by
  rcases step_starts step id with ⟨calls, ⟨starts, same⟩ | ⟨starts, begun⟩⟩ | ⟨op, rest, answer, _, rfl, waiting, _, moved⟩
  · rw [T.next_other state m starts calls, same]
    exact obeyed
  · rw [T.next_starts state m starts]
    exact begins _ begun
  · rw [T.next_call, moved]
    exact (obeyed.step waiting answer).2

theorem obeyed_reachable {start w : World C} {trace : List (World C × Label)} (run : Runs X start trace w)
    (first : T.Obeyed (start.tasks id) initial)
    (begins : ∀ before m label task, Runs X start before m → Begins X m label id task →
      T.Obeyed task (T.fresh m label)) :
    T.Obeyed (w.tasks id) (T.state id initial trace) := by
  refine run.history (I := fun trace w => T.Obeyed (w.tasks id) (T.state id initial trace)) first ?_
  intro before m label n run _ step kept
  rw [T.state_snoc]
  exact T.obeyed_step kept step fun task => begins before m label task run

theorem obeyed {start w : World C} {trace : List (World C × Label)} (run : Runs X start trace w)
    (first : T.Obeyed (start.tasks id) initial)
    (begins : ∀ m label task, Begins X m label id task → T.Obeyed task (T.fresh m label)) :
    T.Obeyed (w.tasks id) (T.state id initial trace) :=
  T.obeyed_reachable run first fun _ m label task _ => begins m label task

theorem state_step {m n : World C} {label : Label} {trace : List (World C × Label)}
    (obeyed : T.Obeyed (m.tasks id) (T.state id initial trace)) (step : Step X m label n) :
    T.state id initial (trace ++ [(m, label)]) = T.state id initial trace ∨
      (∃ op answer, label = .call id op answer ∧ T.typestate.allowed (T.state id initial trace) op ∧
        T.state id initial (trace ++ [(m, label)]) = T.typestate.advance (T.state id initial trace) op answer) ∨
      label.starts = some id ∧ T.state id initial (trace ++ [(m, label)]) = T.fresh m label := by
  rw [T.state_snoc]
  rcases step_starts step id with ⟨calls, ⟨starts, _⟩ | ⟨starts, _⟩⟩ | ⟨op, next, answer, _, rfl, waiting, _⟩
  · exact .inl (T.next_other _ _ starts calls)
  · exact .inr (.inr ⟨starts, T.next_starts _ _ starts⟩)
  · exact .inr (.inl ⟨op, answer, rfl, (obeyed.step waiting answer).1, T.next_call _ _ _ _⟩)

theorem allowed {m n : World C} {op : Call} {answer : Answer op} {state : σ}
    (obeyed : T.Obeyed (m.tasks id) state) (step : Step X m (.call id op answer) n) :
    T.typestate.allowed state op := by
  cases step with
  | call waiting answered => exact (obeyed.step waiting answer).1

end Tracking

end Coordinator
