import Pinaivu.Protocol.RoutingReceipt

namespace Protocol

open Wire Crypto

theorem byte_unambiguous : Unambiguous (fun b : UInt8 => [b]) Anything :=
  unambiguous_of_width 1 (fun _ => rfl) (fun _ _ same => (List.cons.inj same).1)

theorem PayoutBcs.encode_unambiguous : Unambiguous PayoutBcs.encode Anything := by
  have address : Unambiguous (fun a : Vector UInt8 32 => a.toList) Anything :=
    unambiguous_of_width 32 (fun a => a.length_toList) (fun _ _ same => Vector.toList_inj.mp same)
  have fields := (address.append littleEndian64_unambiguous (fun _ _ _ => trivial)).comp
    (f := fun p : PayoutBcs => (p.suiAddress, p.amount)) (by
      intro given found same
      obtain ⟨_, _⟩ := given
      obtain ⟨_, _⟩ := found
      simpa using same)
  exact fields

theorem bcsSequence_eq_ok {α : Type} {encode : α → List UInt8} {items : List α} {bytes : List UInt8}
    (encoded : bcsSequence encode items = .ok bytes) :
    bytes = uleb128 items.length ++ items.flatMap encode := by
  unfold bcsSequence at encoded
  split at encoded
  · cases encoded
  · exact (Except.ok.inj encoded).symm

theorem IntentMessage.toBytes_eq_ok {m : IntentMessage} {bytes : List UInt8}
    (encoded : m.toBytes = .ok bytes) :
    bytes = m.intent :: (littleEndian64 m.timestampMs ++
      (uleb128 m.payload.requestId.length ++ m.payload.requestId.flatMap (fun b => [b]) ++
        (uleb128 m.payload.aggregatedOutputHash.length ++
            m.payload.aggregatedOutputHash.flatMap (fun b => [b]) ++
          (uleb128 m.payload.payouts.length ++ m.payload.payouts.flatMap PayoutBcs.encode)))) := by
  simp only [IntentMessage.toBytes, bcsBytes, Bind.bind, Except.bind, Pure.pure, Except.pure] at encoded
  split at encoded
  · cases encoded
  rename_i requestId requestIdBytes
  split at encoded
  · cases encoded
  rename_i hash hashBytes
  split at encoded
  · cases encoded
  rename_i payouts payoutBytes
  rw [bcsSequence_eq_ok requestIdBytes, bcsSequence_eq_ok hashBytes,
    bcsSequence_eq_ok payoutBytes] at encoded
  exact (Except.ok.inj encoded).symm

theorem IntentMessage.toBytes_inj {m n : IntentMessage} {bytes : List UInt8}
    (left : m.toBytes = .ok bytes) (right : n.toBytes = .ok bytes) : m = n := by
  have same := (toBytes_eq_ok left).symm.trans (toBytes_eq_ok right)
  rw [List.cons.injEq] at same
  rcases same with ⟨intent, same⟩
  obtain ⟨timestamp, same⟩ := littleEndian64_unambiguous _ _ _ _ trivial trivial same
  obtain ⟨requestId, same⟩ := sequence_unambiguous byte_unambiguous _ _ _ _ trivial trivial same
  obtain ⟨hash, same⟩ := sequence_unambiguous byte_unambiguous _ _ _ _ trivial trivial same
  have payouts := (sequence_unambiguous PayoutBcs.encode_unambiguous).injective trivial same
  rcases m with ⟨_, _, ⟨_, _, _⟩⟩
  rcases n with ⟨_, _, ⟨_, _, _⟩⟩
  simp_all

theorem RoutingReceipt.intentMessageBytes_isSome (r : RoutingReceipt)
    (bound : r.payouts.length < 2 ^ 31) :
    ∃ bytes, r.intentMessage.toBytes = .ok bytes ∧ r.intentMessageBytes = some bytes := by
  have requestId : r.requestId.bytes.toList.length ≤ maxSequenceLength := by
    rw [Vector.length_toList]
    decide
  have hash : r.aggregatedOutputHash.toList.length ≤ maxSequenceLength := by
    rw [Vector.length_toList]
    decide
  have payouts : (r.payouts.map payoutBcs).length ≤ maxSequenceLength := by
    rw [List.length_map, maxSequenceLength]
    omega
  have encoded : ∃ bytes, r.intentMessage.toBytes = .ok bytes := by
    simp only [IntentMessage.toBytes, RoutingReceipt.intentMessage, bcsBytes,
      bcsSequence_ok _ _ requestId, bcsSequence_ok _ _ hash, bcsSequence_ok _ _ payouts,
      Bind.bind, Except.bind, Pure.pure, Except.pure]
    exact ⟨_, rfl⟩
  rcases encoded with ⟨bytes, encoded⟩
  exact ⟨bytes, encoded, by rw [RoutingReceipt.intentMessageBytes, encoded]; rfl⟩

theorem RoutingReceipt.toBytes_of_intentMessageBytes {r : RoutingReceipt} {message : List UInt8}
    (encoded : r.intentMessageBytes = some message) : r.intentMessage.toBytes = .ok message := by
  unfold RoutingReceipt.intentMessageBytes at encoded
  cases bytes : r.intentMessage.toBytes with
  | error e =>
    rw [bytes] at encoded
    cases encoded
  | ok sent =>
    rw [bytes] at encoded
    exact congrArg Except.ok (Option.some.inj encoded)

def RoutingReceipt.SameCommitted (a b : RoutingReceipt) : Prop :=
  a.requestId = b.requestId ∧ a.timestampMs = b.timestampMs ∧
    a.aggregatedOutputHash = b.aggregatedOutputHash ∧
    List.Forall₂ (fun p q => parseSuiAddress p.suiAddress = parseSuiAddress q.suiAddress ∧
      p.amountNanox = q.amountNanox) a.payouts b.payouts

theorem map_payoutBcs_eq_iff (ps qs : List Payout) :
    ps.map payoutBcs = qs.map payoutBcs ↔
      List.Forall₂ (fun p q => parseSuiAddress p.suiAddress = parseSuiAddress q.suiAddress ∧
        p.amountNanox = q.amountNanox) ps qs := by
  rw [← List.forall₂_eq_eq_eq, List.forall₂_map_left_iff, List.forall₂_map_right_iff]
  simp only [payoutBcs, PayoutBcs.mk.injEq]

theorem RoutingReceipt.intentMessage_eq_iff (a b : RoutingReceipt) :
    a.intentMessage = b.intentMessage ↔ a.SameCommitted b := by
  have ids : a.requestId = b.requestId ↔ a.requestId.bytes = b.requestId.bytes := by
    cases a.requestId
    cases b.requestId
    simp
  simp only [RoutingReceipt.intentMessage, RoutingReceipt.SameCommitted, IntentMessage.mk.injEq,
    ReceiptPayloadBcs.mk.injEq, Vector.toList_inj, map_payoutBcs_eq_iff, ids, true_and]
  tauto

theorem RoutingReceipt.intentMessageBytes_eq_iff (a b : RoutingReceipt)
    (left : a.payouts.length < 2 ^ 31) (right : b.payouts.length < 2 ^ 31) :
    a.intentMessageBytes = b.intentMessageBytes ↔ a.SameCommitted b := by
  obtain ⟨x, encodedA, bytesA⟩ := a.intentMessageBytes_isSome left
  obtain ⟨y, encodedB, bytesB⟩ := b.intentMessageBytes_isSome right
  rw [bytesA, bytesB, ← RoutingReceipt.intentMessage_eq_iff]
  constructor
  · intro same
    rw [Option.some.injEq] at same
    subst y
    exact IntentMessage.toBytes_inj encodedA encodedB
  · intro same
    rw [same, encodedB] at encodedA
    rw [Except.ok.inj encodedA]

theorem RoutingReceipt.sign_eq_some {C : Primitives} {key : C.SigningKey} {r signed : RoutingReceipt}
    (made : r.sign C key = some signed) :
    ∃ message, signed.intentMessageBytes = some message ∧
      signed = { r with
        coordinatorPubkey := C.verifyingKey key
        signature := signMessage C key message } := by
  simp only [RoutingReceipt.sign, Option.bind_eq_bind, Option.bind_eq_some_iff] at made
  rcases made with ⟨message, encoded, made⟩
  have signedEq := Option.some.inj made
  subst signed
  exact ⟨message, encoded, rfl⟩

theorem RoutingReceipt.sign_isSome (C : Primitives) (key : C.SigningKey) (r : RoutingReceipt)
    (bound : r.payouts.length < 2 ^ 31) :
    ∃ message, r.intentMessageBytes = some message ∧
      r.sign C key = some { r with
        coordinatorPubkey := C.verifyingKey key
        signature := signMessage C key message } := by
  obtain ⟨message, _, encoded⟩ := r.intentMessageBytes_isSome bound
  have named : { r with coordinatorPubkey := C.verifyingKey key }.intentMessageBytes = some message := encoded
  exact ⟨message, encoded, by simp [RoutingReceipt.sign, named]⟩

theorem RoutingReceipt.verify_sign {C : Primitives} (correct : C.Correct) {key : C.SigningKey}
    {r signed : RoutingReceipt} (made : r.sign C key = some signed) :
    signed.verify C = some (.ok ()) := by
  obtain ⟨message, encoded, shape⟩ := RoutingReceipt.sign_eq_some made
  rw [RoutingReceipt.verify_eq encoded, shape]
  exact congrArg some (verifyMessage_signed correct key message)

/-- The receipt signature covers the settlement subset and the timestamp, and nothing else. -/
theorem receipt_signature_commits_to_settlement_subset (C : Primitives) (correct : C.Correct)
    (a b : RoutingReceipt) (left : a.payouts.length < 2 ^ 31) (right : b.payouts.length < 2 ^ 31) :
    (a.intentMessageBytes = b.intentMessageBytes ↔ a.SameCommitted b) ∧
    (∀ clientId primaryPeerId helperPeerIds proofIds bidSetHash,
      { a with
        clientId := clientId
        primaryPeerId := primaryPeerId
        helperPeerIds := helperPeerIds
        proofIds := proofIds
        bidSetHash := bidSetHash }.verify C = a.verify C) ∧
    ∀ (key : C.SigningKey) (signed : RoutingReceipt), a.sign C key = some signed →
      (∀ message, signed.intentMessageBytes = some message → C.Binds key message) →
      b.signature = signed.signature →
      (¬ a.SameCommitted b → b.verify C ≠ some (.ok ())) ∧
      (b.coordinatorPubkey = signed.coordinatorPubkey →
        (b.verify C = some (.ok ()) ↔ a.SameCommitted b)) := by
  refine ⟨a.intentMessageBytes_eq_iff b left right, fun _ _ _ _ _ => rfl, ?_⟩
  intro key signed made binds carried
  obtain ⟨message, encoded, shape⟩ := RoutingReceipt.sign_eq_some made
  obtain ⟨other, _, encodedB⟩ := b.intentMessageBytes_isSome right
  have signedBytes : a.intentMessageBytes = some message := by rw [← encoded, shape]; rfl
  have verified : b.verify C =
      some (verifyMessage C b.coordinatorPubkey (signMessage C key message) other) := by
    rw [RoutingReceipt.verify_eq encodedB, carried, shape]
  have only : b.verify C = some (.ok ()) → a.SameCommitted b := by
    intro accepted
    rw [verified, Option.some.injEq] at accepted
    have messages := verifyMessage_binds (binds message encoded) accepted
    apply (a.intentMessageBytes_eq_iff b left right).mp
    rw [signedBytes, encodedB, messages]
  refine ⟨fun changed accepted => changed (only accepted), ?_⟩
  intro holder
  refine ⟨only, ?_⟩
  intro same
  have bytes := (a.intentMessageBytes_eq_iff b left right).mpr same
  rw [signedBytes, encodedB, Option.some.injEq] at bytes
  rw [verified, holder, shape, ← bytes]
  exact congrArg some (verifyMessage_signed correct key message)

theorem marking_binds_signed {r signed : RoutingReceipt} {key : PublicKey}
    (made : r.sign (Primitives.marking (r.intentMessageBytes.getD [])) key = some signed) :
    ∀ message, signed.intentMessageBytes = some message →
      (Primitives.marking (r.intentMessageBytes.getD [])).Binds key message := by
  intro message encoded
  obtain ⟨sent, same, shape⟩ := RoutingReceipt.sign_eq_some made
  have marked : r.intentMessageBytes.getD [] = message := by
    have original : r.intentMessageBytes = some message := by
      rw [← encoded, shape]
      rfl
    rw [original]
    rfl
  rw [marked]
  exact Primitives.marking_binds message key

def sampleReceipt : RoutingReceipt where
  requestId := ⟨Vector.replicate 16 0⟩
  clientId := "client-abc"
  primaryPeerId := ⟨"12D3KooWPrimary"⟩
  helperPeerIds := [⟨"12D3KooWHelper"⟩]
  bidSetHash := Vector.replicate 32 4
  proofIds := [Vector.replicate 32 5, Vector.replicate 32 6]
  aggregatedOutputHash := Vector.replicate 32 7
  payouts := [⟨"0x0abc", 1000⟩, ⟨"0x0def", 500⟩]
  timestampMs := 1700000010000
  coordinatorPubkey := Vector.replicate 32 0
  signature := []

theorem receipt_signature_rejects_changed_amount :
    let C := Primitives.marking (sampleReceipt.intentMessageBytes.getD [])
    ∃ signed, sampleReceipt.sign C (Vector.replicate 32 0) = some signed ∧
      { signed with clientId := "swapped" }.verify C = some (.ok ()) ∧
      { signed with payouts := [⟨"0x0abc", 999999⟩, ⟨"0x0def", 500⟩] }.verify C ≠ some (.ok ()) := by
  intro C
  have short : 2 < 2 ^ 31 := by decide
  obtain ⟨message, encoded, made⟩ :=
    sampleReceipt.sign_isSome C (Vector.replicate 32 0) short
  refine ⟨_, made, ?_, ?_⟩
  · have same : sampleReceipt.SameCommitted sampleReceipt :=
      ⟨rfl, rfl, rfl, List.forall₂_same.mpr fun _ _ => ⟨rfl, rfl⟩⟩
    have kept := (receipt_signature_commits_to_settlement_subset C (Primitives.marking_correct _)
      sampleReceipt { sampleReceipt with
        clientId := "swapped"
        coordinatorPubkey := C.verifyingKey (Vector.replicate 32 0)
        signature := signMessage C (Vector.replicate 32 0) message } short short).2.2 _ _ made
      (marking_binds_signed made) rfl
    exact (kept.2 rfl).mpr same
  · have changed := ((receipt_signature_commits_to_settlement_subset C (Primitives.marking_correct _)
      sampleReceipt { sampleReceipt with
        payouts := [⟨"0x0abc", 999999⟩, ⟨"0x0def", 500⟩]
        coordinatorPubkey := C.verifyingKey (Vector.replicate 32 0)
        signature := signMessage C (Vector.replicate 32 0) message } short short).2.2 _ _ made
      (marking_binds_signed made) rfl).1
    apply changed
    intro given
    obtain ⟨_, _, _, payouts⟩ := given
    simp [sampleReceipt] at payouts

end Protocol
