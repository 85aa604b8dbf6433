import Mathlib.Algebra.Order.BigOperators.Group.List
import Mathlib.Algebra.Order.Ring.Nat
import Mathlib.Data.List.Nodup
import Mathlib.Data.List.Perm.Subperm
import Mathlib.Logic.Relation

namespace Store

/-- A purse that pays for each slot at most once, with what it has paid. -/
structure Purse (κ : Type) where
  balance : Nat
  paid : List (κ × Nat)

def outlay {κ : Type} (payments : List (κ × Nat)) : Nat := (payments.map (·.2)).sum

namespace Purse

variable {κ : Type} {promised paid : List (κ × Nat)} {p q : Purse κ} {slot : κ} {amount : Nat}

inductive Pays (promised : List (κ × Nat)) : Purse κ → Purse κ → Prop where
  | pay {p : Purse κ} {slot : κ} {amount : Nat} (due : (slot, amount) ∈ promised)
      (fresh : slot ∉ p.paid.map (·.1)) (funds : amount ≤ p.balance) :
      Pays promised p ⟨p.balance - amount, p.paid ++ [(slot, amount)]⟩

theorem Pays.mono {more : List (κ × Nat)} (step : Pays promised p q) (inside : promised ⊆ more) : Pays more p q := by
  cases step with
  | pay due fresh funds => exact .pay (inside due) fresh funds

structure Drawn (promised : List (κ × Nat)) (p q : Purse κ) (paid : List (κ × Nat)) : Prop where
  history : q.paid = p.paid ++ paid
  balance : q.balance + outlay paid = p.balance
  due : paid ⊆ promised
  fresh : ∀ payment ∈ paid, payment.1 ∉ p.paid.map (·.1)
  once : (paid.map (·.1)).Nodup

theorem Drawn.refl (promised : List (κ × Nat)) (p : Purse κ) : Drawn promised p p [] where
  history := (List.append_nil _).symm
  balance := rfl
  due := List.nil_subset _
  fresh := fun _ member => absurd member List.not_mem_nil
  once := List.nodup_nil

theorem Drawn.pay (drawn : Drawn promised p q paid) (due : (slot, amount) ∈ promised)
    (fresh : slot ∉ q.paid.map (·.1)) (funds : amount ≤ q.balance) :
    Drawn promised p ⟨q.balance - amount, q.paid ++ [(slot, amount)]⟩ (paid ++ [(slot, amount)]) := by
  have apart : slot ∉ p.paid.map (·.1) ∧ slot ∉ paid.map (·.1) := by
    rw [drawn.history, List.map_append, List.mem_append, not_or] at fresh
    exact fresh
  have balance := drawn.balance
  constructor
  · rw [drawn.history, List.append_assoc]
  · simp only [outlay, List.map_append, List.sum_append] at balance ⊢
    simp only [List.map_cons, List.map_nil, List.sum_singleton]
    omega
  · exact List.append_subset.mpr ⟨drawn.due, by simpa using due⟩
  · intro payment member
    rcases List.mem_append.mp member with earlier | last
    · exact drawn.fresh payment earlier
    · rw [List.mem_singleton.mp last]
      exact apart.1
  · rw [List.map_append, List.map_singleton, ← List.concat_eq_append]
    exact drawn.once.concat apart.2

theorem drawn_of_pays (steps : Relation.ReflTransGen (Pays promised) p q) : ∃ paid, Drawn promised p q paid := by
  induction steps with
  | refl => exact ⟨[], .refl promised p⟩
  | tail _ step ih =>
    obtain ⟨paid, drawn⟩ := ih
    cases step with
    | pay due fresh funds => exact ⟨_, drawn.pay due fresh funds⟩

theorem Drawn.nodup (drawn : Drawn promised p q paid) : paid.Nodup := List.Nodup.of_map _ drawn.once

theorem outlay_le_of_subperm {payments : List (κ × Nat)} (inside : payments.Subperm promised) :
    outlay payments ≤ outlay promised := by
  obtain ⟨shuffled, same, sub⟩ := inside
  calc outlay payments
      = outlay shuffled := ((same.map Prod.snd).sum_eq).symm
    _ ≤ outlay promised := (sub.map Prod.snd).sum_le_sum fun _ _ => Nat.zero_le _

theorem Drawn.subperm (drawn : Drawn promised p q paid) : paid.Subperm promised := drawn.nodup.subperm drawn.due

/-- A purse that started with enough for every promise has enough for each one still open. -/
theorem Drawn.funds (drawn : Drawn promised p q paid) (enough : outlay promised ≤ p.balance)
    (due : (slot, amount) ∈ promised) (openSlot : slot ∉ q.paid.map (·.1)) : amount ≤ q.balance := by
  have unpaid : (slot, amount) ∉ paid := by
    intro member
    apply openSlot
    rw [drawn.history]
    exact List.mem_map.mpr ⟨_, List.mem_append_right _ member, rfl⟩
  have distinct : ((slot, amount) :: paid).Nodup := List.nodup_cons.mpr ⟨unpaid, drawn.nodup⟩
  have inside : ((slot, amount) :: paid).Subperm promised :=
    distinct.subperm (List.cons_subset.mpr ⟨due, drawn.due⟩)
  have bound : outlay ((slot, amount) :: paid) ≤ outlay promised := outlay_le_of_subperm inside
  have balance := drawn.balance
  simp only [outlay, List.map_cons, List.sum_cons] at bound balance enough
  omega

end Purse

end Store
