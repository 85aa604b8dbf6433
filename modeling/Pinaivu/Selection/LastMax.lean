import Mathlib.Data.List.Induction
import Mathlib.Data.List.Perm.Basic
import Mathlib.Data.Prod.Lex
import Mathlib.Order.Compare

namespace Selection

variable {α β γ : Type} [LinearOrder β] [LinearOrder γ] {key : α → β} {order : α → α → Ordering} {xs ys : List α}
  {x winner : α}

def OrderedBy (order : α → α → Ordering) (key : α → β) : Prop := ∀ a b, order a b = cmp (key a) (key b)

theorem cmp_lex (a a' : β) (b b' : γ) :
    (match cmp a a' with
      | .eq => cmp b b'
      | other => other) = cmp (toLex (a, b)) (toLex (a', b')) := by
  rcases lt_trichotomy a a' with below | rfl | above
  · have less : toLex (a, b) < toLex (a', b') := by
      rw [Prod.Lex.toLex_lt_toLex]
      exact .inl below
    rw [(cmp_eq_lt_iff _ _).mpr below, (cmp_eq_lt_iff _ _).mpr less]
  · rw [cmp_self_eq_eq]
    rcases lt_trichotomy b b' with below | rfl | above
    · have less : toLex (a, b) < toLex (a, b') := by
        rw [Prod.Lex.toLex_lt_toLex]
        exact .inr ⟨rfl, below⟩
      rw [(cmp_eq_lt_iff _ _).mpr less]
      exact (cmp_eq_lt_iff _ _).mpr below
    · rw [cmp_self_eq_eq, cmp_self_eq_eq]
    · have more : toLex (a, b') < toLex (a, b) := by
        rw [Prod.Lex.toLex_lt_toLex]
        exact .inr ⟨rfl, above⟩
      rw [(cmp_eq_gt_iff _ _).mpr more]
      exact (cmp_eq_gt_iff _ _).mpr above
  · have more : toLex (a', b') < toLex (a, b) := by
      rw [Prod.Lex.toLex_lt_toLex]
      exact .inl above
    rw [(cmp_eq_gt_iff _ _).mpr above, (cmp_eq_gt_iff _ _).mpr more]

/-- The last element with the greatest key. -/
def LastMax (key : α → β) (xs : List α) (winner : α) : Prop :=
  ∃ before after, xs = before ++ winner :: after ∧ (∀ x ∈ before, key x ≤ key winner) ∧
    ∀ x ∈ after, key x < key winner

namespace LastMax

theorem mem (last : LastMax key xs winner) : winner ∈ xs := by
  obtain ⟨before, after, rfl, _⟩ := last
  exact List.mem_append_right _ List.mem_cons_self

theorem le (last : LastMax key xs winner) (member : x ∈ xs) : key x ≤ key winner := by
  obtain ⟨before, after, rfl, earlier, later⟩ := last
  rcases List.mem_append.mp member with first | rest
  · exact earlier x first
  · rcases List.mem_cons.mp rest with rfl | behind
    · exact le_rfl
    · exact (later x behind).le

theorem perm {other : α} (last : LastMax key xs winner) (same : xs.Perm ys) (rival : LastMax key ys other) :
    key other = key winner :=
  le_antisymm (last.le (same.mem_iff.mpr rival.mem)) (rival.le (same.mem_iff.mp last.mem))

theorem snoc_lt (last : LastMax key xs winner) (below : key x < key winner) : LastMax key (xs ++ [x]) winner := by
  obtain ⟨before, after, rfl, earlier, later⟩ := last
  refine ⟨before, after ++ [x], by simp, earlier, ?_⟩
  intro y member
  rcases List.mem_append.mp member with behind | new
  · exact later y behind
  · rw [List.mem_singleton.mp new]
    exact below

theorem snoc_ge (last : LastMax key xs winner) (above : key winner ≤ key x) : LastMax key (xs ++ [x]) x :=
  ⟨xs, [], rfl, fun _ member => (last.le member).trans above, fun _ member => absurd member List.not_mem_nil⟩

end LastMax

/-- A fold that gives up its element for any that is not smaller. -/
theorem foldl_lastMax (ordered : OrderedBy order key) (first : α) (rest : List α) :
    LastMax key (first :: rest) (rest.foldl (fun best x => if order best x = .gt then best else x) first) := by
  induction rest using List.reverseRecOn with
  | nil =>
    exact ⟨[], [], rfl, fun _ member => absurd member List.not_mem_nil, fun _ member => absurd member List.not_mem_nil⟩
  | append_singleton rest x ih =>
    rw [List.foldl_concat, ← List.cons_append]
    split
    · rename_i greater
      rw [ordered, cmp_eq_gt_iff] at greater
      exact ih.snoc_lt greater
    · rename_i smaller
      rw [ordered, cmp_eq_gt_iff, not_lt] at smaller
      exact ih.snoc_ge smaller

theorem exists_last {p : α → Prop} [DecidablePred p] (member : x ∈ xs) (holds : p x) :
    ∃ before y after, xs = before ++ y :: after ∧ p y ∧ ∀ z ∈ after, ¬ p z := by
  induction xs using List.reverseRecOn with
  | nil => exact absurd member List.not_mem_nil
  | append_singleton xs last ih =>
    by_cases found : p last
    · exact ⟨xs, last, [], rfl, found, fun _ inside => absurd inside List.not_mem_nil⟩
    · rcases List.mem_append.mp member with early | same
      · obtain ⟨before, y, after, rfl, chosen, rest⟩ := ih early
        refine ⟨before, y, after ++ [last], by simp, chosen, ?_⟩
        intro z inside
        rcases List.mem_append.mp inside with behind | new
        · exact rest z behind
        · rwa [List.mem_singleton.mp new]
      · rw [List.mem_singleton.mp same] at holds
        exact absurd holds found

theorem mem_after_of_split {before after before' after' : List α} {y : α}
    (shape : before ++ x :: after = before' ++ y :: after') (apart : x ≠ y) : y ∈ after ∨ x ∈ after' := by
  rcases List.append_eq_append_iff.mp shape with ⟨middle, _, right⟩ | ⟨middle, _, right⟩
  · cases middle with
    | nil =>
      rw [List.nil_append, List.cons.injEq] at right
      exact absurd right.1 apart
    | cons first middle =>
      rw [List.cons_append, List.cons.injEq] at right
      left
      rw [right.2]
      exact List.mem_append_right _ List.mem_cons_self
  · cases middle with
    | nil =>
      rw [List.nil_append, List.cons.injEq] at right
      exact absurd right.1.symm apart
    | cons first middle =>
      rw [List.cons_append, List.cons.injEq] at right
      right
      rw [right.2]
      exact List.mem_append_right _ List.mem_cons_self

end Selection
