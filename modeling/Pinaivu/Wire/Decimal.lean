import Mathlib.Data.Nat.Digits.Lemmas
import Pinaivu.Wire.Unambiguous

namespace Wire

def isDigit (b : UInt8) : Bool := 48 ≤ b && b ≤ 57

def decimal (n : Nat) : List UInt8 :=
  if n = 0 then [48] else (Nat.digits 10 n).reverse.map fun d => UInt8.ofNat (48 + d)

theorem decimal_symbols (n : Nat) : ∀ b ∈ decimal n, isDigit b = true := by
  intro b member
  unfold decimal at member
  split at member
  · rw [List.mem_singleton] at member
    subst b
    decide
  · rw [List.mem_map] at member
    rcases member with ⟨d, digit, rfl⟩
    have bound : d < 10 := Nat.digits_lt_base (by decide) (List.mem_reverse.mp digit)
    interval_cases d <;> decide

theorem digit_byte_inj {c d : Nat} (hc : c < 10) (hd : d < 10)
    (same : UInt8.ofNat (48 + c) = UInt8.ofNat (48 + d)) : c = d := by
  have numbers := congrArg UInt8.toNat same
  simp only [UInt8.toNat_ofNat'] at numbers
  omega

theorem digits_map_inj : ∀ xs ys : List Nat, (∀ d ∈ xs, d < 10) → (∀ d ∈ ys, d < 10) →
    xs.map (fun d => UInt8.ofNat (48 + d)) = ys.map (fun d => UInt8.ofNat (48 + d)) → xs = ys
  | [], [], _, _, _ => rfl
  | [], _ :: _, _, _, same => by simp at same
  | _ :: _, [], _, _, same => by simp at same
  | x :: xs, y :: ys, hx, hy, same => by
    simp only [List.map_cons, List.cons.injEq] at same
    have head := digit_byte_inj (hx x (by simp)) (hy y (by simp)) same.1
    have tail := digits_map_inj xs ys (fun d member => hx d (List.mem_cons_of_mem _ member))
      (fun d member => hy d (List.mem_cons_of_mem _ member)) same.2
    rw [head, tail]

theorem decimal_zero_unique {n : Nat} (same : decimal n = [48]) : n = 0 := by
  by_contra positive
  simp only [decimal, positive, ↓reduceIte] at same
  have zero : (Nat.digits 10 n).reverse = [0] := by
    apply digits_map_inj _ _ _ (by simp) (by simpa using same)
    intro d member
    exact Nat.digits_lt_base (by decide) (List.mem_reverse.mp member)
  have value := Nat.ofDigits_digits 10 n
  rw [← List.reverse_reverse (Nat.digits 10 n), zero] at value
  simp at value
  omega

theorem decimal_injective : Function.Injective decimal := by
  intro m n same
  by_cases hm : m = 0
  · subst m
    exact (decimal_zero_unique (by rw [← same]; rfl)).symm
  by_cases hn : n = 0
  · subst n
    exact decimal_zero_unique (by rw [same]; rfl)
  simp only [decimal, hm, hn, ↓reduceIte] at same
  have bounded (k : Nat) : ∀ d ∈ (Nat.digits 10 k).reverse, d < 10 :=
    fun d member => Nat.digits_lt_base (by decide) (List.mem_reverse.mp member)
  have reversed := digits_map_inj _ _ (bounded m) (bounded n) same
  exact Nat.digits_inj_iff.mp (List.reverse_injective reversed)

theorem decimal_unambiguous : Unambiguous decimal (Stops isDigit) :=
  unambiguous_of_token isDigit decimal_symbols decimal_injective

theorem decimal_head (n : Nat) : ∃ b rest, decimal n = b :: rest ∧ isDigit b = true := by
  cases shape : decimal n with
  | nil =>
    unfold decimal at shape
    split at shape
    · cases shape
    · rename_i positive
      simp [Nat.digits_eq_nil_iff_eq_zero, positive] at shape
  | cons b rest => exact ⟨b, rest, rfl, decimal_symbols n b (by rw [shape]; simp)⟩

end Wire
