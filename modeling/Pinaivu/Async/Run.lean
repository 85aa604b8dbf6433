import Mathlib.Data.List.Nodup

namespace Async

variable {State Label : Type} {step : State → Label → State → Prop}

theorem filterMap_snoc {α β : Type} (f : α → Option β) (xs : List α) (x : α) :
    (xs ++ [x]).filterMap f = xs.filterMap f ++ (f x).toList := by
  cases found : f x <;> simp [List.filterMap_append, found]

theorem filterMap_sublist {α β : Type} {f g : α → Option β} (implies : ∀ x b, f x = some b → g x = some b)
    (xs : List α) : (xs.filterMap f).Sublist (xs.filterMap g) := by
  induction xs with
  | nil => exact .refl _
  | cons x xs ih =>
    cases found : f x with
    | none =>
      rw [List.filterMap_cons_none found]
      exact ih.trans ((List.sublist_cons_self x xs).filterMap g)
    | some b =>
      rw [List.filterMap_cons_some found, List.filterMap_cons_some (implies x b found)]
      exact ih.cons_cons b

theorem nodup_snoc {α : Type} {xs : List α} {last : Option α} (once : xs.Nodup)
    (fresh : ∀ x, last = some x → x ∉ xs) : (xs ++ last.toList).Nodup := by
  cases last with
  | none => simpa using once
  | some x =>
    rw [Option.toList_some, ← List.concat_eq_append]
    exact List.Nodup.concat (fresh x rfl) once

theorem filterMap_unique {α β : Type} {f : α → Option β} {xs : List α} (once : (xs.filterMap f).Nodup)
    {x y : α} {b : β} (left : x ∈ xs) (right : y ∈ xs) (first : f x = some b) (second : f y = some b) :
    x = y := by
  induction xs with
  | nil => cases left
  | cons head rest ih =>
    have tail : (rest.filterMap f).Nodup := by
      cases found : f head with
      | none => rwa [List.filterMap_cons_none found] at once
      | some value =>
        rw [List.filterMap_cons_some found, List.nodup_cons] at once
        exact once.2
    have apart {z : α} (member : z ∈ rest) (same : f z = some b) : f head ≠ some b := by
      intro found
      rw [List.filterMap_cons_some found, List.nodup_cons] at once
      exact once.1 (List.mem_filterMap.mpr ⟨z, member, same⟩)
    rcases List.mem_cons.mp left with rfl | inside
    · rcases List.mem_cons.mp right with rfl | also
      · rfl
      · exact absurd first (apart also second)
    · rcases List.mem_cons.mp right with rfl | also
      · exact absurd second (apart inside first)
      · exact ih tail inside also

theorem snoc_eq_split {α : Type} {xs before after : List α} {x y : α} (shape : xs ++ [x] = before ++ y :: after) :
    (xs = before ∧ x = y ∧ after = []) ∨ ∃ rest, after = rest ++ [x] ∧ xs = before ++ y :: rest := by
  rcases List.eq_nil_or_concat after with rfl | ⟨rest, last, tail⟩
  · obtain ⟨same, last⟩ := List.append_inj' shape rfl
    exact .inl ⟨same, List.singleton_inj.mp last, rfl⟩
  · rw [List.concat_eq_append] at tail
    subst tail
    rw [← List.cons_append, ← List.append_assoc] at shape
    obtain ⟨same, last'⟩ := List.append_inj' shape rfl
    rw [List.singleton_inj.mp last']
    exact .inr ⟨rest, rfl, same⟩

theorem filterMap_place {α β : Type} {f : α → Option β} {xs before after before' after' : List α} {x y : α} {b : β}
    (once : (xs.filterMap f).Nodup) (left : xs = before ++ x :: after) (right : xs = before' ++ y :: after')
    (first : f x = some b) (second : f y = some b) : before = before' ∧ x = y ∧ after = after' := by
  rw [left, List.filterMap_append, List.filterMap_cons_some first, List.nodup_middle, List.nodup_cons,
    List.mem_append, not_or] at once
  have early : y ∉ before := fun member => once.1.1 (List.mem_filterMap.mpr ⟨y, member, second⟩)
  have late : y ∉ after := fun member => once.1.2 (List.mem_filterMap.mpr ⟨y, member, second⟩)
  exact (List.append_cons_inj_of_notMem early late).mp (left.symm.trans right)

variable {α : Type} {opens closes : α → Prop} {xs : List α} {x : α}

def Since (opens closes : α → Prop) (xs : List α) : Prop :=
  ∃ before x after, xs = before ++ x :: after ∧ opens x ∧ ∀ y ∈ after, ¬ closes y

theorem not_since_nil : ¬ Since opens closes [] := by
  intro given
  obtain ⟨before, x, after, shape, _⟩ := given
  exact absurd shape.symm (List.append_ne_nil_of_right_ne_nil _ (List.cons_ne_nil _ _))

theorem since_snoc : Since opens closes (xs ++ [x]) ↔ opens x ∨ Since opens closes xs ∧ ¬ closes x := by
  constructor
  · intro given
    obtain ⟨before, y, after, shape, opened, still⟩ := given
    rcases snoc_eq_split shape with ⟨_, same, _⟩ | ⟨rest, rfl, inside⟩
    · exact .inl (same ▸ opened)
    · refine .inr ⟨⟨before, y, rest, inside, opened, fun z member => ?_⟩, ?_⟩
      · exact still z (List.mem_append_left _ member)
      · exact still x (List.mem_append_right _ (List.mem_singleton.mpr rfl))
  · intro given
    rcases given with opened | ⟨⟨before, y, after, rfl, opened, still⟩, closed⟩
    · exact ⟨xs, x, [], rfl, opened, fun _ member => absurd member List.not_mem_nil⟩
    · refine ⟨before, y, after ++ [x], by simp, opened, fun z member => ?_⟩
      rcases List.mem_append.mp member with inside | last
      · exact still z inside
      · rw [List.mem_singleton.mp last]
        exact closed

/-- A finite run, with each step recorded as its label and the state it was taken in. -/
inductive Run (step : State → Label → State → Prop) (s : State) :
    List (State × Label) → State → Prop where
  | nil : Run step s [] s
  | snoc {m t : State} {trace : List (State × Label)} {label : Label} (run : Run step s trace m)
      (last : step m label t) : Run step s (trace ++ [(m, label)]) t

namespace Run

variable {s m t : State} {trace before after : List (State × Label)} {label : Label}

theorem one (first : step s label t) : Run step s [(s, label)] t := .snoc .nil first

theorem append (left : Run step s before m) (right : Run step m after t) :
    Run step s (before ++ after) t := by
  induction right with
  | nil => rwa [List.append_nil]
  | snoc _ last ih =>
    rw [← List.append_assoc]
    exact .snoc ih last

theorem cons (first : step s label m) (rest : Run step m trace t) :
    Run step s ((s, label) :: trace) t := (one first).append rest

theorem split (run : Run step s trace t) (shape : trace = before ++ (m, label) :: after) :
    Run step s before m ∧ ∃ n, step m label n ∧ Run step n after t := by
  induction run generalizing after with
  | nil => simp at shape
  | @snoc x t trace last run taken ih =>
    rcases snoc_eq_split shape with ⟨rfl, same, rfl⟩ | ⟨rest, rfl, inside⟩
    · cases same
      exact ⟨run, t, taken, .nil⟩
    · obtain ⟨left, n, mid, right⟩ := ih inside
      exact ⟨left, n, mid, .snoc right taken⟩

theorem map {State' Label' : Type} {step' : State' → Label' → State' → Prop} {f : State → State'}
    {g : Label → Label'} (run : Run step s trace t)
    (each : ∀ m label n, step m label n → step' (f m) (g label) (f n)) :
    Run step' (f s) (trace.map fun taken => (f taken.1, g taken.2)) (f t) := by
  induction run with
  | nil => exact .nil
  | snoc run last ih =>
    rw [List.map_append]
    exact .snoc ih (each _ _ _ last)

theorem relabel {renamed : Label → Label} (same : ∀ m label n, step m label n ↔ step m (renamed label) n) :
    Run step s trace t ↔ Run step s (trace.map fun taken => (taken.1, renamed taken.2)) t := by
  constructor
  · intro run
    exact run.map (f := id) fun m label n taken => (same m label n).mp taken
  · intro run
    generalize shape : (trace.map fun taken => (taken.1, renamed taken.2)) = mapped at run
    induction run generalizing trace with
    | nil =>
      rw [List.map_eq_nil_iff.mp shape]
      exact .nil
    | snoc run last ih =>
      obtain ⟨before, ended, rfl, earlier, final⟩ := List.map_eq_append_iff.mp shape
      obtain ⟨taken, rfl, named⟩ := List.map_eq_singleton_iff.mp final
      cases named
      exact .snoc (ih earlier) ((same _ _ _).mpr last)

theorem invariant {I : State → Prop} (run : Run step s trace t) (start : I s)
    (keeps : ∀ m label n, (m, label) ∈ trace → step m label n → I m → I n) : I t := by
  induction run with
  | nil => exact start
  | @snoc x t trace last run taken ih =>
    apply keeps x last t (by simp) taken
    exact ih fun m label n member => keeps m label n (by simp [member])

theorem invariant_at {I : State → Prop} (run : Run step s trace t) (start : I s)
    (keeps : ∀ m label n, (m, label) ∈ trace → step m label n → I m → I n)
    (member : (m, label) ∈ trace) : I m := by
  obtain ⟨before, after, shape⟩ := List.append_of_mem member
  refine (run.split shape).1.invariant start ?_
  intro x last n inside
  apply keeps
  rw [shape]
  exact List.mem_append_left _ inside

theorem last_mem {x : State × Label} (shape : before ++ [x] <+: trace) : x ∈ trace :=
  shape.subset (List.mem_append_right _ (List.mem_singleton.mpr rfl))

theorem init_mem {x y : State × Label} (shape : before ++ [x] <+: trace) (member : y ∈ before) : y ∈ trace :=
  shape.subset (List.mem_append_left _ member)

/-- An invariant of the state together with the steps taken so far. -/
theorem history {I : List (State × Label) → State → Prop} (run : Run step s trace t) (start : I [] s)
    (keeps : ∀ before m label n, Run step s before m → before ++ [(m, label)] <+: trace → step m label n →
      I before m → I (before ++ [(m, label)]) n) : I trace t := by
  induction run with
  | nil => exact start
  | @snoc x t trace last run taken ih =>
    apply keeps trace x last t run (List.prefix_refl _) taken
    exact ih fun before m label n run shape => keeps before m label n run (shape.trans (List.prefix_append _ _))

theorem fifo {α : Type} (run : Run step s trace t) (held : State → List α) (enters leaves : Label → Option α)
    (empty : held s = [])
    (each : ∀ before m label n, Run step s before m → step m label n →
      (leaves label).toList ++ held n = held m ++ (enters label).toList) :
    trace.filterMap (enters ·.2) = trace.filterMap (leaves ·.2) ++ held t := by
  induction run with
  | nil => rw [empty]; rfl
  | @snoc x t trace label run last ih =>
    rw [filterMap_snoc, filterMap_snoc, ih, List.append_assoc, List.append_assoc, each trace x label t run last]

theorem step_of_mem (run : Run step s trace t) (member : (m, label) ∈ trace) :
    ∃ n, step m label n := by
  obtain ⟨before, after, shape⟩ := List.append_of_mem member
  obtain ⟨_, n, taken, _⟩ := run.split shape
  exact ⟨n, taken⟩

end Run

/-- Steps with labels as in `may` can lead to a state as in `goal`. -/
def Possible (step : State → Label → State → Prop) (may : Label → Prop) (goal : State → Prop) (s : State) : Prop :=
  ∃ trace t, Run step s trace t ∧ (∀ taken ∈ trace, may taken.2) ∧ goal t

namespace Possible

variable {may : Label → Prop} {goal mid : State → Prop} {s m : State} {label : Label}

theorem here (reached : goal s) : Possible step may goal s := ⟨[], s, .nil, nofun, reached⟩

theorem after (first : step s label m) (allowed : may label) (rest : Possible step may goal m) :
    Possible step may goal s := by
  obtain ⟨trace, t, run, each, reached⟩ := rest
  exact ⟨_, t, .cons first run, List.forall_mem_cons.mpr ⟨allowed, each⟩, reached⟩

theorem bind (first : Possible step may mid s) (rest : ∀ t, mid t → Possible step may goal t) :
    Possible step may goal s := by
  obtain ⟨trace, t, run, each, reached⟩ := first
  obtain ⟨later, u, onward, also, goal⟩ := rest t reached
  exact ⟨_, u, run.append onward, List.forall_mem_append.mpr ⟨each, also⟩, goal⟩

theorem wider {other : Label → Prop} (possible : Possible step may goal s) (weaker : ∀ label, may label → other label) :
    Possible step other goal s := by
  obtain ⟨trace, t, run, each, reached⟩ := possible
  exact ⟨trace, t, run, fun taken member => weaker _ (each taken member), reached⟩

end Possible

end Async
