import Pinaivu.Async.Routine

namespace Async

variable {Op : Type} {Ans : Op → Type} {α β : Type}

/-- Calls put for calls; their answers can be carried over and back. -/
structure Rewriting (Op : Type) (Ans : Op → Type) where
  op : Op → Op
  forth : (o : Op) → Ans o → Ans (op o)
  back : (o : Op) → Ans (op o) → Ans o
  back_forth : ∀ o answer, back o (forth o answer) = answer

namespace Rewriting

def image (R : Rewriting Op Ans) (o : Op) : (o' : Op) × (Ans o' → Ans o) := ⟨R.op o, R.back o⟩

def Fixes (R : Rewriting Op Ans) (o : Op) : Prop := R.image o = ⟨o, id⟩

end Rewriting

namespace Routine

variable {R : Rewriting Op Ans}

def rewrite (R : Rewriting Op Ans) : Routine Op Ans α → Routine Op Ans α
  | .done a => .done a
  | .call o next => .call (R.op o) fun answer => (next (R.back o answer)).rewrite R

theorem rewrite_bind (t : Routine Op Ans α) (f : α → Routine Op Ans β) :
    (t.bind f).rewrite R = (t.rewrite R).bind fun a => (f a).rewrite R := by
  induction t with
  | done a => rfl
  | call o next ih =>
    simp only [Routine.bind, rewrite, ih]

theorem rewrite_seq {t t' : Routine Op Ans α} {f f' : α → Routine Op Ans β} (first : t.rewrite R = t')
    (rest : ∀ a, (f a).rewrite R = f' a) : (t >>= f).rewrite R = t' >>= f' := by
  subst first
  change (t.bind f).rewrite R = (t.rewrite R).bind f'
  rw [rewrite_bind]
  congr 1
  funext a
  exact rest a

theorem rewrite_call (o : Op) (next : Ans o → Routine Op Ans α) : (Routine.call o next).rewrite R =
    .call (R.image o).1 fun answer => (next ((R.image o).2 answer)).rewrite R := rfl

theorem rewrite_fixed {o : Op} (fixed : R.Fixes o) (next : Ans o → Routine Op Ans α) :
    (Routine.call o next).rewrite R = .call o fun answer => (next answer).rewrite R := by
  rw [rewrite_call, fixed]
  rfl

theorem rewrite_perform {o : Op} (fixed : R.Fixes o) {f f' : Ans o → Routine Op Ans α}
    (rest : ∀ answer, (f answer).rewrite R = f' answer) : (perform o >>= f).rewrite R = perform o >>= f' := by
  change (Routine.call o f).rewrite R = .call o f'
  rw [rewrite_fixed fixed]
  congr 1
  funext answer
  exact rest answer

theorem rewrite_of_sat {result : α → Prop} {t : Routine Op Ans α} (sat : t.Sat R.Fixes (fun _ _ => True) result) :
    t.rewrite R = t := by
  induction t with
  | done a => rfl
  | call o next ih =>
    rw [rewrite_fixed sat.1]
    congr 1
    funext answer
    exact ih answer (sat.2 answer trivial)

end Routine

end Async
