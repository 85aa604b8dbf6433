import Mathlib.Data.List.Basic

namespace Wire

def base64Digit (d : Nat) : Char :=
  if d < 26 then Char.ofNat (65 + d)
  else if d < 52 then Char.ofNat (71 + d)
  else if d < 62 then Char.ofNat (d - 4)
  else if d = 62 then '+'
  else '/'

def base64Value (c : Char) : Option Nat :=
  if 'A' ≤ c ∧ c ≤ 'Z' then some (c.toNat - 65)
  else if 'a' ≤ c ∧ c ≤ 'z' then some (c.toNat - 71)
  else if '0' ≤ c ∧ c ≤ '9' then some (c.toNat + 4)
  else if c = '+' then some 62
  else if c = '/' then some 63
  else none

def base64Pad : Char := '='

def base64Encode : List UInt8 → List Char
  | [] => []
  | [a] => [base64Digit (a.toNat / 4), base64Digit (a.toNat % 4 * 16), base64Pad, base64Pad]
  | [a, b] =>
    [base64Digit (a.toNat / 4), base64Digit (a.toNat % 4 * 16 + b.toNat / 16),
      base64Digit (b.toNat % 16 * 4), base64Pad]
  | a :: b :: c :: rest =>
    base64Digit (a.toNat / 4) :: base64Digit (a.toNat % 4 * 16 + b.toNat / 16) ::
      base64Digit (b.toNat % 16 * 4 + c.toNat / 64) :: base64Digit (c.toNat % 64) :: base64Encode rest

def base64First (w x : Char) : Option (UInt8 × Nat) := do
  let p ← base64Value w
  let q ← base64Value x
  return (UInt8.ofNat (4 * p + q / 16), q % 16)

def base64Second (left : Nat) (y : Char) : Option (UInt8 × Nat) := do
  let r ← base64Value y
  return (UInt8.ofNat (16 * left + r / 4), r % 4)

/-- Strict: the padding is required, and the bits that do not fill a byte are zero. -/
def base64Decode : List Char → Option (List UInt8)
  | [] => some []
  | w :: x :: y :: z :: rest => do
    let (a, left) ← base64First w x
    if z = base64Pad ∧ rest = [] then
      if y = base64Pad then
        if left = 0 then return [a] else none
      else
        let (b, left) ← base64Second left y
        if left = 0 then return [a, b] else none
    else
      let (b, left) ← base64Second left y
      let s ← base64Value z
      let tail ← base64Decode rest
      return a :: b :: UInt8.ofNat (64 * left + s) :: tail
  | _ => none

theorem base64Value_digit : ∀ d < 64, base64Value (base64Digit d) = some d := by decide +kernel

theorem base64Digit_ne_pad : ∀ d < 64, base64Digit d ≠ base64Pad := by decide +kernel

theorem base64First_digits (a : UInt8) {low : Nat} (bound : low < 16) :
    base64First (base64Digit (a.toNat / 4)) (base64Digit (a.toNat % 4 * 16 + low)) = some (a, low) := by
  have width := a.toNat_lt
  have byte : UInt8.ofNat (4 * (a.toNat / 4) + (a.toNat % 4 * 16 + low) / 16) = a := by
    have sum : 4 * (a.toNat / 4) + (a.toNat % 4 * 16 + low) / 16 = a.toNat := by omega
    rw [sum]
    exact UInt8.ofNat_toNat
  have left : (a.toNat % 4 * 16 + low) % 16 = low := by omega
  simp only [base64First, base64Value_digit _ (show a.toNat / 4 < 64 by omega),
    base64Value_digit _ (show a.toNat % 4 * 16 + low < 64 by omega), Option.bind_eq_bind, Option.bind_some,
    Option.pure_def, byte, left]

theorem base64Second_digit (b : UInt8) {low : Nat} (bound : low < 4) :
    base64Second (b.toNat / 16) (base64Digit (b.toNat % 16 * 4 + low)) = some (b, low) := by
  have width := b.toNat_lt
  have byte : UInt8.ofNat (16 * (b.toNat / 16) + (b.toNat % 16 * 4 + low) / 4) = b := by
    have sum : 16 * (b.toNat / 16) + (b.toNat % 16 * 4 + low) / 4 = b.toNat := by omega
    rw [sum]
    exact UInt8.ofNat_toNat
  have left : (b.toNat % 16 * 4 + low) % 4 = low := by omega
  simp only [base64Second, base64Value_digit _ (show b.toNat % 16 * 4 + low < 64 by omega), Option.bind_eq_bind,
    Option.bind_some, Option.pure_def, byte, left]

theorem base64Decode_encode (bytes : List UInt8) : base64Decode (base64Encode bytes) = some bytes := by
  induction bytes using base64Encode.induct with
  | case1 => rfl
  | case2 a =>
    have first := base64First_digits a (show 0 < 16 by decide)
    rw [Nat.add_zero] at first
    simp only [base64Encode, base64Decode, first, Option.bind_eq_bind, Option.bind_some, and_self, if_true,
      Option.pure_def]
  | case3 a b =>
    have width := b.toNat_lt
    have first := base64First_digits a (show b.toNat / 16 < 16 by omega)
    have second := base64Second_digit b (show 0 < 4 by decide)
    rw [Nat.add_zero] at second
    have digit := base64Digit_ne_pad (b.toNat % 16 * 4) (by omega)
    simp only [base64Encode, base64Decode, first, second, Option.bind_eq_bind, Option.bind_some, and_self, if_true,
      if_neg digit, Option.pure_def]
  | case4 a b c rest ih =>
    have widthB := b.toNat_lt
    have widthC := c.toNat_lt
    have first := base64First_digits a (show b.toNat / 16 < 16 by omega)
    have second := base64Second_digit b (show c.toNat / 64 < 4 by omega)
    have third := base64Value_digit (c.toNat % 64) (by omega)
    have digit := base64Digit_ne_pad (c.toNat % 64) (by omega)
    have byte : UInt8.ofNat (64 * (c.toNat / 64) + c.toNat % 64) = c := by
      rw [Nat.div_add_mod]
      exact UInt8.ofNat_toNat
    simp only [base64Encode, base64Decode, first, second, third, ih, Option.bind_eq_bind, Option.bind_some, digit,
      false_and, if_false, Option.pure_def, byte]

example : base64Decode (base64Encode [77, 97, 110, 255]) = some [77, 97, 110, 255] := by decide
example : base64Decode "TWF=".toList = none := by decide

end Wire
