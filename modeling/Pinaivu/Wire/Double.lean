import Mathlib.Algebra.Group.Nat.Defs
import Mathlib.Data.Nat.Log

namespace Wire

def doubleUnit (n : Nat) : Nat := 2 ^ (Nat.log2 n + 1 - 53)

/-- The integer a JSON number denotes once it has been read as a double: nearest, ties to even. -/
def roundToDouble (n : Nat) : Nat :=
  let low := n % doubleUnit n
  if 2 * low < doubleUnit n then n - low
  else if doubleUnit n < 2 * low then n - low + doubleUnit n
  else if n / doubleUnit n % 2 = 0 then n - low else n - low + doubleUnit n

def ExactDouble (n : Nat) : Prop := n % doubleUnit n = 0

instance (n : Nat) : Decidable (ExactDouble n) := inferInstanceAs (Decidable (_ = _))

theorem doubleUnit_pos (n : Nat) : 0 < doubleUnit n := Nat.two_pow_pos _

theorem roundToDouble_eq_self_iff (n : Nat) : roundToDouble n = n ↔ ExactDouble n := by
  have unit := doubleUnit_pos n
  have below := Nat.mod_lt n unit
  have inside := Nat.mod_le n (doubleUnit n)
  unfold roundToDouble ExactDouble
  dsimp only
  split
  · omega
  split
  · omega
  split <;> omega

theorem exactDouble_of_lt {n : Nat} (small : n < 2 ^ 53) : ExactDouble n := by
  have unit : doubleUnit n = 1 := by
    rw [doubleUnit]
    by_cases zero : n = 0
    · subst n
      decide
    · have bits : Nat.log2 n < 53 := (Nat.log2_lt zero).mpr small
      have width : Nat.log2 n + 1 - 53 = 0 := by omega
      rw [width, Nat.pow_zero]
  rw [ExactDouble, unit, Nat.mod_one]

example : roundToDouble (2 ^ 53 + 1) = 2 ^ 53 := by decide

end Wire
