import Mathlib.Algebra.Group.Nat.Defs
import Pinaivu.Wire.Unambiguous

namespace Wire

inductive BcsError where
  | exceededMaxLen (length : Nat)
  deriving DecidableEq, Repr

/-- `bcs::MAX_SEQUENCE_LENGTH`. -/
def maxSequenceLength : Nat := 2 ^ 31 - 1

def uleb128 (n : Nat) : List UInt8 :=
  if n < 128 then [UInt8.ofNat n] else UInt8.ofNat (n % 128 + 128) :: uleb128 (n / 128)
termination_by n

def littleEndian : Nat → Nat → List UInt8
  | 0, _ => []
  | width + 1, n => UInt8.ofNat (n % 256) :: littleEndian width (n / 256)

def littleEndian64 (n : UInt64) : List UInt8 := littleEndian 8 n.toNat

def bcsSequence {α : Type} (encode : α → List UInt8) (items : List α) :
    Except BcsError (List UInt8) :=
  if maxSequenceLength < items.length then .error (.exceededMaxLen items.length)
  else .ok (uleb128 items.length ++ items.flatMap encode)

theorem byte_ofNat_inj {m n : Nat} (hm : m < 256) (hn : n < 256)
    (same : UInt8.ofNat m = UInt8.ofNat n) : m = n := by
  have numbers := congrArg UInt8.toNat same
  simp only [UInt8.toNat_ofNat'] at numbers
  omega

theorem uleb128_short {n : Nat} (short : n < 128) : uleb128 n = [UInt8.ofNat n] := by
  rw [uleb128, if_pos short]

theorem uleb128_long {n : Nat} (long : ¬ n < 128) :
    uleb128 n = UInt8.ofNat (n % 128 + 128) :: uleb128 (n / 128) := by
  rw [uleb128, if_neg long]

theorem uleb128_unambiguous : Unambiguous uleb128 Anything := by
  intro m
  induction m using Nat.strongRecOn with
  | ind m ih =>
    intro n s t _ _ same
    by_cases hm : m < 128
    · rw [uleb128_short hm] at same
      by_cases hn : n < 128
      · rw [uleb128_short hn] at same
        simp only [List.cons_append, List.nil_append, List.cons.injEq] at same
        exact ⟨byte_ofNat_inj (by omega) (by omega) same.1, same.2⟩
      · rw [uleb128_long hn] at same
        simp only [List.cons_append, List.cons.injEq] at same
        have := byte_ofNat_inj (by omega) (by omega) same.1
        omega
    · rw [uleb128_long hm] at same
      by_cases hn : n < 128
      · rw [uleb128_short hn] at same
        simp only [List.cons_append, List.cons.injEq] at same
        have := byte_ofNat_inj (by omega) (by omega) same.1
        omega
      · rw [uleb128_long hn] at same
        simp only [List.cons_append, List.cons.injEq] at same
        have low := byte_ofNat_inj (by omega) (by omega) same.1
        obtain ⟨high, rest⟩ := ih (m / 128) (by omega) (n / 128) s t trivial trivial same.2
        exact ⟨by omega, rest⟩

theorem littleEndian_length (width n : Nat) : (littleEndian width n).length = width := by
  induction width generalizing n with
  | zero => rfl
  | succ width ih => rw [littleEndian, List.length_cons, ih]

theorem littleEndian_inj {width m n : Nat} (hm : m < 256 ^ width) (hn : n < 256 ^ width)
    (same : littleEndian width m = littleEndian width n) : m = n := by
  induction width generalizing m n with
  | zero => omega
  | succ width ih =>
    rw [Nat.pow_succ] at hm hn
    simp only [littleEndian, List.cons.injEq] at same
    have low := byte_ofNat_inj (by omega) (by omega) same.1
    have high := ih (by omega) (by omega) same.2
    omega

theorem littleEndian64_injective : Function.Injective littleEndian64 := by
  intro m n same
  exact UInt64.toNat_inj.mp (littleEndian_inj m.toNat_lt n.toNat_lt same)

theorem littleEndian64_unambiguous : Unambiguous littleEndian64 Anything :=
  unambiguous_of_width 8 (fun n => littleEndian_length 8 n.toNat) littleEndian64_injective

theorem bcsSequence_ok {α : Type} (encode : α → List UInt8) (items : List α)
    (bound : items.length ≤ maxSequenceLength) :
    bcsSequence encode items = .ok (uleb128 items.length ++ items.flatMap encode) := by
  simp [bcsSequence, Nat.not_lt.mpr bound]

theorem sequence_unambiguous {α : Type} {encode : α → List UInt8}
    (reads : Unambiguous encode Anything) :
    Unambiguous (fun items : List α => uleb128 items.length ++ items.flatMap encode) Anything := by
  intro xs ys s t _ _ same
  simp only [List.append_assoc] at same
  obtain ⟨lengths, rest⟩ := uleb128_unambiguous _ _ _ _ trivial trivial same
  exact reads.flatMap xs ys lengths s t rest

end Wire
