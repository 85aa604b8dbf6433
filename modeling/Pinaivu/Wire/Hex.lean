import Mathlib.Data.List.Basic

namespace Wire

def hexDigits : List Char :=
  ['0', '1', '2', '3', '4', '5', '6', '7', '8', '9', 'a', 'b', 'c', 'd', 'e', 'f']

def hexDigit (d : Nat) : Char := hexDigits.getD d '0'

def hexValue (c : Char) : Option Nat :=
  if '0' ≤ c ∧ c ≤ '9' then some (c.toNat - 48)
  else if 'a' ≤ c ∧ c ≤ 'f' then some (c.toNat - 87)
  else if 'A' ≤ c ∧ c ≤ 'F' then some (c.toNat - 55)
  else none

theorem hexValue_hexDigit : ∀ d < 16, hexValue (hexDigit d) = some d := by decide

theorem hexValue_lt {c : Char} {d : Nat} (value : hexValue c = some d) : d < 16 := by
  have range : ∀ low high : Char, low ≤ c → c ≤ high → low.toNat ≤ c.toNat ∧ c.toNat ≤ high.toNat :=
    fun low high above below => ⟨above, below⟩
  unfold hexValue at value
  split at value
  · rename_i bounds
    have := range _ _ bounds.1 bounds.2
    simp at this value
    omega
  split at value
  · rename_i bounds
    have := range _ _ bounds.1 bounds.2
    simp at this value
    omega
  split at value
  · rename_i bounds
    have := range _ _ bounds.1 bounds.2
    simp at this value
    omega
  · cases value

def hexByte (b : UInt8) : List Char := [hexDigit (b.toNat / 16), hexDigit (b.toNat % 16)]

def hexEncode (bytes : List UInt8) : List Char := bytes.flatMap hexByte

def hexDecode : List Char → Option (List UInt8)
  | [] => some []
  | [_] => none
  | high :: low :: rest => do
    let h ← hexValue high
    let l ← hexValue low
    let tail ← hexDecode rest
    return UInt8.ofNat (16 * h + l) :: tail

theorem hexDecode_hexByte (b : UInt8) (rest : List Char) :
    hexDecode (hexByte b ++ rest) = (hexDecode rest).map (b :: ·) := by
  have bound := b.toNat_lt
  have high := hexValue_hexDigit (b.toNat / 16) (by omega)
  have low := hexValue_hexDigit (b.toNat % 16) (by omega)
  have value : UInt8.ofNat (16 * (b.toNat / 16) + b.toNat % 16) = b := by
    rw [Nat.div_add_mod]
    exact UInt8.ofNat_toNat
  simp only [hexByte, List.cons_append, List.nil_append, hexDecode, high, low, value,
    Option.bind_eq_bind, Option.bind_some, Option.pure_def]
  cases hexDecode rest <;> rfl

theorem hexDecode_hexEncode (bytes : List UInt8) : hexDecode (hexEncode bytes) = some bytes := by
  induction bytes with
  | nil => rfl
  | cons b bytes ih =>
    change hexDecode (hexByte b ++ hexEncode bytes) = some (b :: bytes)
    rw [hexDecode_hexByte, ih]
    rfl

theorem hexEncode_injective : Function.Injective hexEncode := by
  intro a b same
  have decoded := hexDecode_hexEncode a
  rw [same, hexDecode_hexEncode] at decoded
  exact (Option.some.inj decoded).symm

theorem hexDecode_cons_cons {high low : Char} {rest : List Char} {bytes : List UInt8}
    (decoded : hexDecode (high :: low :: rest) = some bytes) :
    ∃ h l tail, hexValue high = some h ∧ hexValue low = some l ∧ hexDecode rest = some tail ∧
      bytes = UInt8.ofNat (16 * h + l) :: tail := by
  simp only [hexDecode, Option.bind_eq_bind, Option.bind_eq_some_iff, Option.pure_def,
    Option.some.injEq] at decoded
  rcases decoded with ⟨h, high, l, low, tail, rest, same⟩
  exact ⟨h, l, tail, high, low, rest, same.symm⟩

theorem hexDecode_length {text : List Char} {bytes : List UInt8}
    (decoded : hexDecode text = some bytes) : text.length = 2 * bytes.length := by
  induction text using hexDecode.induct generalizing bytes with
  | case1 =>
    cases decoded
    rfl
  | case2 c => cases decoded
  | case3 high low rest ih =>
    obtain ⟨h, l, tail, _, _, decodedRest, rfl⟩ := hexDecode_cons_cons decoded
    have length := ih decodedRest
    simp only [List.length_cons]
    omega

theorem hexDecode_symbols {text : List Char} {bytes : List UInt8}
    (decoded : hexDecode text = some bytes) : ∀ c ∈ text, (hexValue c).isSome = true := by
  induction text using hexDecode.induct generalizing bytes with
  | case1 => simp
  | case2 c => cases decoded
  | case3 high low rest ih =>
    obtain ⟨h, l, tail, hh, hl, decodedRest, rfl⟩ := hexDecode_cons_cons decoded
    intro c member
    rcases List.mem_cons.mp member with rfl | member
    · rw [hh]; rfl
    rcases List.mem_cons.mp member with rfl | member
    · rw [hl]; rfl
    · exact ih decodedRest c member

theorem hexDecode_isSome {text : List Char} (symbols : ∀ c ∈ text, (hexValue c).isSome = true)
    (even : text.length % 2 = 0) : ∃ bytes, hexDecode text = some bytes := by
  induction text using hexDecode.induct with
  | case1 => exact ⟨[], rfl⟩
  | case2 c => simp at even
  | case3 high low rest ih =>
    obtain ⟨h, hh⟩ := Option.isSome_iff_exists.mp (symbols high (by simp))
    obtain ⟨l, hl⟩ := Option.isSome_iff_exists.mp (symbols low (by simp))
    simp only [List.length_cons] at even
    obtain ⟨tail, decoded⟩ := ih (fun c member => symbols c (by simp [member])) (by omega)
    exact ⟨UInt8.ofNat (16 * h + l) :: tail, by simp [hexDecode, hh, hl, decoded]⟩

theorem hexValue_zero_iff (c : Char) : hexValue c = some 0 ↔ c = '0' := by
  constructor
  · intro value
    unfold hexValue at value
    split at value
    · rename_i bounds
      have low : 48 ≤ c.toNat := bounds.1
      rw [Option.some.injEq] at value
      apply Char.toNat_inj.mp
      change c.toNat = 48
      omega
    split at value
    · rename_i bounds
      have low : 97 ≤ c.toNat := bounds.1
      rw [Option.some.injEq] at value
      omega
    split at value
    · rename_i bounds
      have low : 65 ≤ c.toNat := bounds.1
      rw [Option.some.injEq] at value
      omega
    · cases value
  · intro same
    subst same
    decide

theorem hexDecode_zero_iff {text : List Char} {bytes : List UInt8}
    (decoded : hexDecode text = some bytes) : (∀ b ∈ bytes, b = 0) ↔ ∀ c ∈ text, c = '0' := by
  induction text using hexDecode.induct generalizing bytes with
  | case1 =>
    cases decoded
    simp
  | case2 c => cases decoded
  | case3 high low rest ih =>
    obtain ⟨h, l, tail, hh, hl, decodedRest, rfl⟩ := hexDecode_cons_cons decoded
    have boundH := hexValue_lt hh
    have boundL := hexValue_lt hl
    have first : UInt8.ofNat (16 * h + l) = 0 ↔ high = '0' ∧ low = '0' := by
      rw [← hexValue_zero_iff, ← hexValue_zero_iff, hh, hl, ← UInt8.toNat_inj, UInt8.toNat_ofNat']
      simp only [UInt8.toNat_zero, Option.some.injEq]
      omega
    simp only [List.forall_mem_cons, first, ih decodedRest]
    tauto

theorem hexDecode_zeros (count : Nat) (text : List Char) :
    hexDecode (List.replicate (2 * count) '0' ++ text) =
      (hexDecode text).map (List.replicate count 0 ++ ·) := by
  induction count with
  | zero => simp
  | succ count ih =>
    have zero : hexValue '0' = some 0 := by decide
    rw [Nat.mul_succ, List.replicate_succ, List.replicate_succ, List.cons_append, List.cons_append,
      hexDecode, zero, ih]
    cases hexDecode text <;> simp [List.replicate_succ]

end Wire
