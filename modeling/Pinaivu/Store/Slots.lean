import Mathlib.Data.List.Nodup
import Mathlib.Data.List.Induction

namespace Store

variable {κ α : Type}

def Distinct (slots : List (κ × α)) : Prop := (slots.map (·.1)).Nodup

theorem Distinct.filter {slots : List (κ × α)} (distinct : Distinct slots) (keep : κ × α → Bool) :
    Distinct (slots.filter keep) := List.Nodup.sublist (List.filter_sublist.map _) distinct

variable [DecidableEq κ]

def lookup (slots : List (κ × α)) (key : κ) : Option α := (slots.find? (·.1 = key)).map (·.2)

def change (slots : List (κ × α)) (key : κ) (f : α → α) : List (κ × α) :=
  slots.map fun slot => if slot.1 = key then (slot.1, f slot.2) else slot

@[simp] theorem lookup_nil (key : κ) : lookup ([] : List (κ × α)) key = none := rfl

theorem lookup_cons (slot : κ × α) (slots : List (κ × α)) (key : κ) :
    lookup (slot :: slots) key = if slot.1 = key then some slot.2 else lookup slots key := by
  unfold lookup
  by_cases same : slot.1 = key
  · simp [same]
  · simp [same]

theorem lookup_eq_none_iff (slots : List (κ × α)) (key : κ) :
    lookup slots key = none ↔ key ∉ slots.map (·.1) := by
  induction slots with
  | nil => simp
  | cons slot slots ih =>
    rw [lookup_cons, List.map_cons, List.mem_cons]
    by_cases same : slot.1 = key
    · simp [same]
    · simp [same, ih, Ne.symm same]

theorem lookup_snoc (slots : List (κ × α)) (slot : κ × α) (key : κ) :
    lookup (slots ++ [slot]) key = (lookup slots key).or (if slot.1 = key then some slot.2 else none) := by
  induction slots with
  | nil => simp [lookup_cons]
  | cons first slots ih =>
    rw [List.cons_append, lookup_cons, lookup_cons, ih]
    by_cases same : first.1 = key
    · simp [same]
    · simp [same]

theorem lookup_change (slots : List (κ × α)) (target key : κ) (f : α → α) :
    lookup (change slots target f) key =
      if target = key then (lookup slots key).map f else lookup slots key := by
  induction slots with
  | nil => simp [change]
  | cons slot slots ih =>
    change lookup (_ :: change slots target f) key = _
    rw [lookup_cons, lookup_cons, ih]
    by_cases same : slot.1 = key
    · subst key
      by_cases meant : slot.1 = target
      · simp [meant]
      · simp [meant, Ne.symm meant]
    · by_cases meant : slot.1 = target
      · subst target
        simp [same]
      · simp [meant, same]

theorem lookup_filter {slots : List (κ × α)} (distinct : Distinct slots) (keep : α → Bool) (key : κ) :
    lookup (slots.filter fun slot => keep slot.2) key = (lookup slots key).filter keep := by
  induction slots with
  | nil => rfl
  | cons slot slots ih =>
    obtain ⟨fresh, rest⟩ := List.nodup_cons.mp distinct
    have tail := ih rest
    by_cases same : slot.1 = key
    · subst key
      have absent : lookup slots slot.1 = none := (lookup_eq_none_iff slots slot.1).mpr fresh
      rw [absent] at tail
      by_cases kept : keep slot.2 = true
      · simp [lookup_cons, kept, Option.filter]
      · simp [lookup_cons, kept, tail, Option.filter]
    · by_cases kept : keep slot.2 = true
      · simp [lookup_cons, kept, same, tail]
      · simp [lookup_cons, kept, same, tail]

theorem mem_iff_lookup {slots : List (κ × α)} (distinct : Distinct slots) (key : κ) (value : α) :
    (key, value) ∈ slots ↔ lookup slots key = some value := by
  induction slots with
  | nil => simp
  | cons slot slots ih =>
    obtain ⟨fresh, rest⟩ := List.nodup_cons.mp distinct
    rw [List.mem_cons, lookup_cons, ih rest]
    by_cases same : slot.1 = key
    · subst key
      have absent : lookup slots slot.1 = none := (lookup_eq_none_iff slots slot.1).mpr fresh
      rw [absent, if_pos rfl, Option.some.injEq]
      constructor
      · intro found
        rcases found with here | later
        · rw [← here]
        · cases later
      · intro here
        left
        rw [← here]
    · rw [if_neg same]
      constructor
      · intro found
        rcases found with here | later
        · exact absurd (congrArg Prod.fst here).symm same
        · exact later
      · exact .inr

theorem keys_change (slots : List (κ × α)) (target : κ) (f : α → α) :
    (change slots target f).map (·.1) = slots.map (·.1) := by
  unfold change
  rw [List.map_map]
  apply List.map_congr_left
  intro slot _
  show (if slot.1 = target then (slot.1, f slot.2) else slot).1 = slot.1
  by_cases meant : slot.1 = target
  · rw [if_pos meant]
  · rw [if_neg meant]

theorem Distinct.change {slots : List (κ × α)} (distinct : Distinct slots) (target : κ) (f : α → α) :
    Distinct (change slots target f) := by
  unfold Distinct
  rw [keys_change]
  exact distinct

theorem Distinct.snoc {slots : List (κ × α)} (distinct : Distinct slots) {key : κ}
    (fresh : lookup slots key = none) (value : α) : Distinct (slots ++ [(key, value)]) := by
  unfold Distinct
  rw [List.map_append, List.map_cons, List.map_nil, ← List.concat_eq_append]
  exact List.Nodup.concat ((lookup_eq_none_iff slots key).mp fresh) distinct

/-- `*counts.entry(key).or_insert(0) += 1`. -/
def bump (counts : List (κ × Nat)) (key : κ) : List (κ × Nat) :=
  change (if lookup counts key = none then counts ++ [(key, 0)] else counts) key (· + 1)

theorem Distinct.bump {counts : List (κ × Nat)} (distinct : Distinct counts) (key : κ) :
    Distinct (bump counts key) := by
  unfold Store.bump
  split
  · rename_i absent
    exact (distinct.snoc absent 0).change key _
  · exact distinct.change key _

theorem lookup_bump (counts : List (κ × Nat)) (counted key : κ) :
    lookup (bump counts counted) key =
      if counted = key then some ((lookup counts key).getD 0 + 1) else lookup counts key := by
  unfold bump
  rw [lookup_change]
  by_cases same : counted = key
  · subst key
    rw [if_pos rfl, if_pos rfl]
    split
    · rename_i absent
      rw [lookup_snoc, absent, if_pos rfl]
      rfl
    · rename_i present
      obtain ⟨count, found⟩ := Option.ne_none_iff_exists'.mp present
      rw [found]
      rfl
  · rw [if_neg same, if_neg same]
    split
    · rw [lookup_snoc, if_neg same, Option.or_none]
    · rfl

theorem lookup_tally (items : List κ) (key : κ) :
    lookup (items.foldl bump []) key = if key ∈ items then some (items.count key) else none := by
  induction items using List.reverseRecOn with
  | nil => rfl
  | append_singleton items item ih =>
    rw [List.foldl_append]
    change lookup (bump (items.foldl bump []) item) key = _
    rw [lookup_bump, ih, List.count_append]
    simp only [List.mem_append, List.mem_singleton]
    by_cases same : item = key
    · subst key
      by_cases member : item ∈ items
      · simp [member]
      · simp [member, List.count_eq_zero_of_not_mem member]
    · by_cases member : key ∈ items
      · simp [same, member]
      · simp [same, Ne.symm same, member]

theorem distinct_tally (items : List κ) : Distinct (items.foldl bump []) := by
  induction items using List.reverseRecOn with
  | nil => exact List.nodup_nil
  | append_singleton items item ih =>
    rw [List.foldl_append]
    exact ih.bump item

theorem countP_mem_le_count_flatten (lists : List (List κ)) (a : κ) :
    lists.countP (a ∈ ·) ≤ lists.flatten.count a := by
  induction lists with
  | nil => simp
  | cons list lists ih =>
    rw [List.flatten_cons, List.count_append, List.countP_cons]
    by_cases member : a ∈ list
    · have one := List.count_pos_iff.mpr member
      simp only [member, decide_true, ↓reduceIte]
      omega
    · simp only [member, decide_false, Bool.false_eq_true, ↓reduceIte]
      omega

/-- Occurrences count the lists that hold `a` exactly if none of them holds it twice. -/
theorem count_flatten_eq_iff (lists : List (List κ)) (a : κ) :
    lists.flatten.count a = lists.countP (a ∈ ·) ↔ ∀ list ∈ lists, list.count a ≤ 1 := by
  induction lists with
  | nil => simp
  | cons list lists ih =>
    have bound := countP_mem_le_count_flatten lists a
    rw [List.flatten_cons, List.count_append, List.countP_cons, List.forall_mem_cons, ← ih]
    by_cases member : a ∈ list
    · have one := List.count_pos_iff.mpr member
      simp only [member, decide_true, ↓reduceIte]
      omega
    · have none := List.count_eq_zero_of_not_mem member
      simp only [member, decide_false, Bool.false_eq_true, ↓reduceIte]
      omega

end Store
