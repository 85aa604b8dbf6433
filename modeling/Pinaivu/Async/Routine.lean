import Mathlib.Logic.Basic

namespace Async

variable {Op : Type} {Ans : Op → Type} {α β : Type}

/-- Straight-line asynchronous code: a call suspends the routine until its answer arrives. -/
inductive Routine (Op : Type) (Ans : Op → Type) (α : Type) where
  | done (a : α)
  | call (op : Op) (next : Ans op → Routine Op Ans α)

namespace Routine

def bind : Routine Op Ans α → (α → Routine Op Ans β) → Routine Op Ans β
  | .done a, f => f a
  | .call op next, f => .call op fun answer => (next answer).bind f

instance : Monad (Routine Op Ans) where
  pure := .done
  bind := Routine.bind

def perform (op : Op) : Routine Op Ans (Ans op) := .call op .done

/-- Every call the routine makes satisfies `guarantee` and its result satisfies `result`, as long as
    the answers it has been given satisfy `rely`. -/
def Sat (guarantee : Op → Prop) (rely : (op : Op) → Ans op → Prop) (result : α → Prop) :
    Routine Op Ans α → Prop
  | .done a => result a
  | .call op next => guarantee op ∧ ∀ answer, rely op answer → (next answer).Sat guarantee rely result

variable {guarantee : Op → Prop} {rely : (op : Op) → Ans op → Prop} {result : α → Prop}

theorem Sat.seq {last : β → Prop} {t : Routine Op Ans α} {f : α → Routine Op Ans β}
    (first : t.Sat guarantee rely result) (rest : ∀ a, result a → (f a).Sat guarantee rely last) :
    (t.bind f).Sat guarantee rely last := by
  induction t with
  | done a => exact rest a first
  | call op next ih => exact ⟨first.1, fun answer relied => ih answer (first.2 answer relied)⟩

theorem Sat.perform {result : β → Prop} {op : Op} {f : Ans op → Routine Op Ans β} (allowed : guarantee op)
    (rest : ∀ answer, rely op answer → (f answer).Sat guarantee rely result) :
    (Routine.perform op >>= f).Sat guarantee rely result := ⟨allowed, rest⟩

theorem Sat.step {t : Routine Op Ans α} {op : Op} {next : Ans op → Routine Op Ans α}
    (sat : t.Sat guarantee rely result) (shape : t = .call op next) (answer : Ans op) :
    guarantee op ∧ (rely op answer → (next answer).Sat guarantee rely result) := by
  subst shape
  exact ⟨sat.1, fun relied => sat.2 answer relied⟩

theorem Sat.mono {wider : Op → Prop} {t : Routine Op Ans α} (sat : t.Sat guarantee rely result)
    (implies : ∀ op, guarantee op → wider op) : t.Sat wider rely result := by
  induction t with
  | done a => exact sat
  | call op next ih => exact ⟨implies op sat.1, fun answer relied => ih answer (sat.2 answer relied)⟩

inductive Follows : Routine Op Ans α → List (Σ op, Ans op) → Routine Op Ans α → Prop where
  | nil {t : Routine Op Ans α} : Follows t [] t
  | cons {op : Op} {next : Ans op → Routine Op Ans α} {answer : Ans op} {calls : List (Σ op, Ans op)}
      {t : Routine Op Ans α} (rest : Follows (next answer) calls t) :
      Follows (.call op next) (⟨op, answer⟩ :: calls) t

theorem Follows.snoc {t : Routine Op Ans α} {calls : List (Σ op, Ans op)} {op : Op}
    {next : Ans op → Routine Op Ans α} (path : Follows t calls (.call op next)) (answer : Ans op) :
    Follows t (calls ++ [⟨op, answer⟩]) (next answer) := by
  generalize shape : Routine.call op next = last at path
  induction path with
  | nil =>
    subst shape
    exact .cons .nil
  | cons rest ih => exact .cons (ih shape)

theorem Follows.seq_inv {t : Routine Op Ans α} {f : α → Routine Op Ans β} {calls : List (Σ op, Ans op)}
    {last : Routine Op Ans β} (path : Follows (t.bind f) calls last) :
    (∃ op next, Follows t calls (.call op next) ∧ last = .call op fun answer => (next answer).bind f) ∨
      ∃ first rest a, calls = first ++ rest ∧ Follows t first (.done a) ∧ Follows (f a) rest last := by
  induction t generalizing calls with
  | done a => exact .inr ⟨[], calls, a, rfl, .nil, path⟩
  | call op next ih =>
    cases path with
    | nil => exact .inl ⟨op, next, .nil, rfl⟩
    | cons onward =>
      rcases ih _ onward with ⟨op', next', inner, shape⟩ | ⟨first, rest, a, rfl, inner, onward⟩
      · exact .inl ⟨op', next', .cons inner, shape⟩
      · exact .inr ⟨_ :: first, rest, a, rfl, .cons inner, onward⟩

theorem Follows.seq_done {t : Routine Op Ans α} {f : α → Routine Op Ans β} {calls : List (Σ op, Ans op)} {b : β}
    (path : Follows (t.bind f) calls (.done b)) :
    ∃ first rest a, calls = first ++ rest ∧ Follows t first (.done a) ∧ Follows (f a) rest (.done b) := by
  rcases path.seq_inv with ⟨_, _, _, shape⟩ | through
  · cases shape
  · exact through

theorem Follows.call_done {op : Op} {next : Ans op → Routine Op Ans α} {calls : List (Σ op, Ans op)} {a : α}
    (path : Follows (.call op next) calls (.done a)) :
    ∃ answer rest, calls = ⟨op, answer⟩ :: rest ∧ Follows (next answer) rest (.done a) := by
  cases path with
  | cons rest => exact ⟨_, _, rfl, rest⟩

theorem Follows.perform_done {op : Op} {f : Ans op → Routine Op Ans α} {calls : List (Σ op, Ans op)} {a : α}
    (path : Follows (perform op >>= f) calls (.done a)) :
    ∃ answer rest, calls = ⟨op, answer⟩ :: rest ∧ Follows (f answer) rest (.done a) := path.call_done

theorem Follows.sat {t last : Routine Op Ans α} {calls : List (Σ op, Ans op)} (path : Follows t calls last)
    (sat : t.Sat guarantee (fun _ _ => True) result) : ∀ made ∈ calls, guarantee made.1 := by
  induction path with
  | nil => simp
  | cons rest ih =>
    intro made member
    rcases List.mem_cons.mp member with rfl | member
    · exact sat.1
    · exact ih (sat.2 _ trivial) made member

theorem Follows.allowed {t : Routine Op Ans α} {calls : List (Σ op, Ans op)} {op : Op}
    {next : Ans op → Routine Op Ans α} (path : Follows t calls (.call op next))
    (sat : t.Sat guarantee (fun _ _ => True) result) : guarantee op := by
  generalize shape : Routine.call op next = last at path
  induction path with
  | nil =>
    subst shape
    exact sat.1
  | cons rest ih => exact ih (sat.2 _ trivial) shape

end Routine

end Async
