import Pinaivu.Async.Routine
import Pinaivu.Async.Run

namespace Async

variable {Op : Type} {Ans : Op → Type} {σ α β : Type}

namespace Routine

/-- Against an environment that answers calls as in `responds`, the routine never waits in vain, and
    whatever the answers it ends with a result and in a state as in `ends`. -/
def Ensures (responds : σ → (op : Op) → Ans op → σ → Prop) (ends : α → σ → Prop) : Routine Op Ans α → σ → Prop
  | .done a, s => ends a s
  | .call op next, s => (∃ answer t, responds s op answer t) ∧
      ∀ answer t, responds s op answer t → (next answer).Ensures responds ends t

variable {responds : σ → (op : Op) → Ans op → σ → Prop} {ends : α → σ → Prop} {s : σ}

theorem Ensures.seq {last : β → σ → Prop} {t : Routine Op Ans α} {f : α → Routine Op Ans β}
    (first : t.Ensures responds ends s) (rest : ∀ a s, ends a s → (f a).Ensures responds last s) :
    (t.bind f).Ensures responds last s := by
  induction t generalizing s with
  | done a => exact rest a s first
  | call op next ih => exact ⟨first.1, fun answer t given => ih answer (first.2 answer t given)⟩

theorem Ensures.mono {wider : α → σ → Prop} {t : Routine Op Ans α} (ensures : t.Ensures responds ends s)
    (implies : ∀ a s, ends a s → wider a s) : t.Ensures responds wider s := by
  induction t generalizing s with
  | done a => exact implies a s ensures
  | call op next ih => exact ⟨ensures.1, fun answer t given => ih answer (ensures.2 answer t given)⟩

theorem Ensures.run {State Label : Type} {step : State → Label → State → Prop}
    {holds : State → σ → Routine Op Ans β → Prop} {f : α → Routine Op Ans β} {t : Routine Op Ans α} {m : State}
    (ensures : t.Ensures responds ends s) (here : holds m s (t.bind f))
    (realise : ∀ m s op next answer t, holds m s (.call op next) → responds s op answer t →
      ∃ label n, step m label n ∧ holds n t (next answer)) :
    ∃ trace n a s', Run step m trace n ∧ holds n s' (f a) ∧ ends a s' := by
  induction t generalizing s m with
  | done a => exact ⟨[], m, a, s, .nil, here, ensures⟩
  | call op next ih =>
    obtain ⟨answer, t, given⟩ := ensures.1
    obtain ⟨label, n, taken, after⟩ := realise m s op _ answer t here given
    obtain ⟨trace, last, a, s', run, held, ended⟩ := ih answer (ensures.2 answer t given) after
    exact ⟨(m, label) :: trace, last, a, s', .cons taken run, held, ended⟩

/-- The routine run on its own: the calls it makes and their answers, its result, and the state it leaves. -/
inductive Evaluates (responds : σ → (op : Op) → Ans op → σ → Prop) :
    Routine Op Ans α → σ → List (Σ op, Ans op) → α → σ → Prop where
  | done {a : α} {s : σ} : Evaluates responds (.done a) s [] a s
  | call {op : Op} {next : Ans op → Routine Op Ans α} {answer : Ans op} {s m t : σ} {calls : List (Σ op, Ans op)}
      {a : α} (given : responds s op answer m) (rest : Evaluates responds (next answer) m calls a t) :
      Evaluates responds (.call op next) s (⟨op, answer⟩ :: calls) a t

theorem Evaluates.seq {t : Routine Op Ans α} {f : α → Routine Op Ans β} {m u : σ} {calls more : List (Σ op, Ans op)}
    {a : α} {b : β} (first : Evaluates responds t s calls a m) (rest : Evaluates responds (f a) m more b u) :
    Evaluates responds (t.bind f) s (calls ++ more) b u := by
  induction first with
  | done => exact rest
  | call given _ ih => exact .call given (ih rest)

end Routine

end Async
