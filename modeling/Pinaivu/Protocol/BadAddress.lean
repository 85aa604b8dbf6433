import Pinaivu.Protocol.ReceiptBinding

namespace Protocol

open Wire Crypto

def addressOfHex (digits : List Char) : Option (Vector UInt8 32) :=
  match hexDecode digits with
  | some bytes => if fits : bytes.length ≤ 32 then some (leftPad bytes fits) else none
  | none => none

def dropPrefix0x : List Char → List Char
  | '0' :: 'x' :: rest => rest
  | text => text

/-- The Sui address a text stands for: blanks around it, at most one `0x`, hex of at most 32 bytes. -/
def denotes (s : String) : Option (Vector UInt8 32) := addressOfHex (dropPrefix0x (trim s.toList))

def SameSuiAddress (s t : String) : Prop := ∃ a, denotes s = some a ∧ denotes t = some a

/-- A text that stands for no address and is yet taken for `a`: hex behind a repeated `0x`, or no
    address at all where `a` is zero. -/
def Misread (s : String) (a : Vector UInt8 32) : Prop :=
  denotes s = none ∧
    (addressOfHex (trimStart0x (trim s.toList)) = some a ∨
      (addressOfHex (trimStart0x (trim s.toList)) = none ∧ a = zeroAddress))

def RoutingReceipt.withAddress (r : RoutingReceipt) (i : Nat) (s : String) : RoutingReceipt :=
  { r with payouts := r.payouts.modify i fun p => { p with suiAddress := s } }

theorem parseSuiAddress_eq (s : String) :
    parseSuiAddress s = (addressOfHex (trimStart0x (trim s.toList))).getD zeroAddress := by
  unfold parseSuiAddress addressOfHex
  cases hexDecode (trimStart0x (trim s.toList)) with
  | none => rfl
  | some bytes =>
    by_cases fits : bytes.length ≤ 32
    · simp [fits]
    · simp [fits]

theorem addressOfHex_symbols {digits : List Char} {a : Vector UInt8 32}
    (address : addressOfHex digits = some a) : ∀ c ∈ digits, (hexValue c).isSome = true := by
  unfold addressOfHex at address
  cases decoded : hexDecode digits with
  | none =>
    rw [decoded] at address
    cases address
  | some bytes => exact hexDecode_symbols decoded

theorem trimStart0x_dropPrefix0x (text : List Char) :
    trimStart0x text = trimStart0x (dropPrefix0x text) := by
  unfold dropPrefix0x
  split
  · rw [trimStart0x]
  · rfl

theorem parseSuiAddress_denotes {s : String} {a : Vector UInt8 32} (address : denotes s = some a) :
    parseSuiAddress s = a := by
  have symbols := addressOfHex_symbols address
  rw [parseSuiAddress_eq, trimStart0x_dropPrefix0x, trimStart0x_of_hex symbols]
  change (denotes s).getD zeroAddress = a
  rw [address]
  rfl

theorem misread_iff {s : String} {a : Vector UInt8 32} (nothing : denotes s = none) :
    Misread s a ↔ parseSuiAddress s = a := by
  rw [parseSuiAddress_eq, Misread]
  cases addressOfHex (trimStart0x (trim s.toList)) with
  | none =>
    simp only [nothing, Option.getD_none, true_and, reduceCtorEq, false_or]
    exact eq_comm
  | some b => simp [nothing]

theorem parseSuiAddress_eq_iff_misread {s : String} {a : Vector UInt8 32} :
    parseSuiAddress s = a ↔ denotes s = some a ∨ Misread s a := by
  constructor
  · intro parsed
    cases address : denotes s with
    | none =>
      right
      exact (misread_iff address).mpr parsed
    | some b =>
      left
      rw [← parsed, parseSuiAddress_denotes address]
  · intro read
    rcases read with address | misread
    · exact parseSuiAddress_denotes address
    · exact (misread_iff misread.1).mp misread

theorem RoutingReceipt.verify_ok {C : Primitives} {r : RoutingReceipt}
    (accepted : r.verify C = some (.ok ())) :
    ∃ message, r.intentMessageBytes = some message ∧
      verifyMessage C r.coordinatorPubkey r.signature message = .ok () := by
  cases encoded : r.intentMessageBytes with
  | none =>
    unfold RoutingReceipt.verify at accepted
    rw [encoded] at accepted
    split at accepted
    · split at accepted
      · cases accepted
      · cases accepted
    · cases accepted
  | some message =>
    rw [RoutingReceipt.verify_eq encoded, Option.some.injEq] at accepted
    exact ⟨message, rfl, accepted⟩

theorem forall₂_modify {α : Type} {R : α → α → Prop} (refl : ∀ a, R a a) {f : α → α} {items : List α}
    {i : Nat} {a : α} (present : items[i]? = some a) :
    List.Forall₂ R items (items.modify i f) ↔ R a (f a) := by
  induction items generalizing i with
  | nil => simp at present
  | cons b items ih =>
    cases i with
    | zero =>
      simp only [List.getElem?_cons_zero, Option.some.injEq] at present
      subst b
      simp [List.forall₂_same, refl]
    | succ i =>
      simp only [List.getElem?_cons_succ] at present
      simp [refl, ih present]

theorem RoutingReceipt.sameCommitted_withAddress (r : RoutingReceipt) (s : String) {i : Nat} {p : Payout}
    (present : r.payouts[i]? = some p) :
    r.SameCommitted (r.withAddress i s) ↔ parseSuiAddress s = parseSuiAddress p.suiAddress := by
  unfold RoutingReceipt.SameCommitted RoutingReceipt.withAddress
  rw [forall₂_modify (fun _ => ⟨rfl, rfl⟩) present]
  simp [eq_comm]

theorem RoutingReceipt.verify_withAddress {C : Primitives} (correct : C.Correct) {key : C.SigningKey}
    {r signed : RoutingReceipt} (made : r.sign C key = some signed)
    (binds : ∀ message, signed.intentMessageBytes = some message → C.Binds key message)
    (s : String) {i : Nat} {p : Payout} (present : r.payouts[i]? = some p) :
    (signed.withAddress i s).verify C = some (.ok ()) ↔
      parseSuiAddress s = parseSuiAddress p.suiAddress := by
  obtain ⟨message, encoded, shape⟩ := RoutingReceipt.sign_eq_some made
  have kept : signed.payouts[i]? = some p := by
    rw [shape]
    exact present
  have holder : (signed.withAddress i s).coordinatorPubkey = C.verifyingKey key := by
    rw [shape]
    rfl
  have carried : (signed.withAddress i s).signature = signMessage C key message := by
    rw [shape]
    rfl
  rw [← signed.sameCommitted_withAddress s kept, ← RoutingReceipt.intentMessage_eq_iff]
  constructor
  · intro accepted
    obtain ⟨other, encodedOther, verified⟩ := RoutingReceipt.verify_ok accepted
    rw [carried] at verified
    have same := verifyMessage_binds (binds message encoded) verified
    subst other
    exact IntentMessage.toBytes_inj (RoutingReceipt.toBytes_of_intentMessageBytes encoded)
      (RoutingReceipt.toBytes_of_intentMessageBytes encodedOther)
  · intro same
    have encodedOther : (signed.withAddress i s).intentMessageBytes = some message := by
      rw [RoutingReceipt.intentMessageBytes, ← same]
      exact encoded
    rw [RoutingReceipt.verify_eq encodedOther, holder, carried]
    exact congrArg some (verifyMessage_signed correct key message)

/-- An address that denotes nothing verifies in every signed receipt, since signing reads it as zeros
    too; so the receipt's addresses must denote, and a replacement must not be misread. -/
theorem bad_address_fails_iff (C : Primitives) (correct : C.Correct) (key : C.SigningKey)
    (r signed : RoutingReceipt) (made : r.sign C key = some signed)
    (binds : ∀ message, signed.intentMessageBytes = some message → C.Binds key message) :
    (((∃ p ∈ r.payouts, denotes p.suiAddress = none) → signed.verify C ≠ some (.ok ())) ↔
      ∀ p ∈ r.payouts, (denotes p.suiAddress).isSome = true) ∧
    ∀ (i : Nat) (p : Payout) (s : String), r.payouts[i]? = some p →
      ((((∃ q ∈ r.payouts, denotes q.suiAddress = none) → signed.verify C ≠ some (.ok ())) ∧
          (¬ SameSuiAddress s p.suiAddress → (signed.withAddress i s).verify C ≠ some (.ok ()))) ↔
        (∀ q ∈ r.payouts, (denotes q.suiAddress).isSome = true) ∧
          ∀ a, denotes p.suiAddress = some a → ¬ Misread s a) := by
  have first : ((∃ p ∈ r.payouts, denotes p.suiAddress = none) → signed.verify C ≠ some (.ok ())) ↔
      ∀ p ∈ r.payouts, (denotes p.suiAddress).isSome = true := by
    constructor
    · intro fails p member
      by_contra nothing
      apply fails ⟨p, member, Option.not_isSome_iff_eq_none.mp nothing⟩
      exact RoutingReceipt.verify_sign correct made
    · intro denoting bad
      obtain ⟨p, member, nothing⟩ := bad
      have some := denoting p member
      rw [nothing] at some
      cases some
  apply And.intro first
  intro i p s present
  rw [first]
  apply and_congr_right
  intro denoting
  obtain ⟨a, address⟩ := Option.isSome_iff_exists.mp (denoting p (List.mem_of_getElem? present))
  have read := parseSuiAddress_denotes address
  have verified := RoutingReceipt.verify_withAddress correct made binds s present
  rw [read, parseSuiAddress_eq_iff_misread] at verified
  constructor
  · intro fails b denoted misread
    have same : b = a := Option.some.inj (denoted.symm.trans address)
    subst b
    apply fails _ (verified.mpr (.inr misread))
    intro alike
    obtain ⟨c, left, _⟩ := alike
    rw [misread.1] at left
    cases left
  · intro apart different accepted
    rcases verified.mp accepted with same | misread
    · exact different ⟨a, same, address⟩
    · exact apart a address misread

theorem replaced_address_fails :
    let C := Primitives.marking (sampleReceipt.intentMessageBytes.getD [])
    ∃ signed, sampleReceipt.sign C (Vector.replicate 32 0) = some signed ∧
      (signed.withAddress 0 "0xdead").verify C ≠ some (.ok ()) := by
  intro C
  have short : 2 < 2 ^ 31 := by decide
  obtain ⟨message, _, made⟩ := sampleReceipt.sign_isSome C (Vector.replicate 32 0) short
  have denoting : ∀ q ∈ sampleReceipt.payouts, (denotes q.suiAddress).isSome = true := by decide
  have read : (denotes "0xdead").isSome = true := by decide
  have different : denotes "0xdead" ≠ denotes "0x0abc" := by decide
  have failing := ((bad_address_fails_iff C (Primitives.marking_correct _) _ _ _ made
    (marking_binds_signed made)).2 0 ⟨"0x0abc", 1000⟩ "0xdead" rfl).mpr
  have apart : ∀ a, denotes "0x0abc" = some a → ¬ Misread "0xdead" a := by
    intro a _ misread
    rw [misread.1] at read
    cases read
  have changed : ¬ SameSuiAddress "0xdead" "0x0abc" := by
    intro same
    obtain ⟨a, left, right⟩ := same
    exact different (left.trans right.symm)
  exact ⟨_, made, (failing ⟨denoting, apart⟩).2 changed⟩

def oddReceipt : RoutingReceipt := { sampleReceipt with payouts := [⟨"0xabc", 1000⟩, ⟨"0x0def", 500⟩] }

theorem oddReceipt_denotes_nothing : ∃ p ∈ oddReceipt.payouts, denotes p.suiAddress = none :=
  ⟨⟨"0xabc", 1000⟩, by simp [oddReceipt], by decide⟩

/-- An odd number of digits verifies once signed, and `0x0x` may stand in for `0x`. -/
theorem odd_address_verifies :
    (let C := Primitives.marking (oddReceipt.intentMessageBytes.getD [])
      ∃ signed, oddReceipt.sign C (Vector.replicate 32 0) = some signed ∧
        (∃ p ∈ oddReceipt.payouts, denotes p.suiAddress = none) ∧ signed.verify C = some (.ok ())) ∧
    (let C := Primitives.marking (sampleReceipt.intentMessageBytes.getD [])
      ∃ signed, sampleReceipt.sign C (Vector.replicate 32 0) = some signed ∧
        ¬ SameSuiAddress "0x0x0abc" "0x0abc" ∧
        (signed.withAddress 0 "0x0x0abc").verify C = some (.ok ())) := by
  have short : 2 < 2 ^ 31 := by decide
  constructor
  · intro C
    obtain ⟨message, _, made⟩ := oddReceipt.sign_isSome C (Vector.replicate 32 0) short
    exact ⟨_, made, oddReceipt_denotes_nothing,
      RoutingReceipt.verify_sign (Primitives.marking_correct _) made⟩
  · intro C
    obtain ⟨message, _, made⟩ := sampleReceipt.sign_isSome C (Vector.replicate 32 0) short
    have present : sampleReceipt.payouts[0]? = some ⟨"0x0abc", 1000⟩ := rfl
    have verified := RoutingReceipt.verify_withAddress (Primitives.marking_correct _) made
      (marking_binds_signed made) "0x0x0abc" present
    have unread : denotes "0x0x0abc" = none := by decide
    have changed : ¬ SameSuiAddress "0x0x0abc" "0x0abc" := by
      intro same
      obtain ⟨a, left, _⟩ := same
      rw [unread] at left
      cases left
    exact ⟨_, made, changed, verified.mpr (by decide)⟩

end Protocol
