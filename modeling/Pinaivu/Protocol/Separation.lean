import Pinaivu.Protocol.AckBinding
import Pinaivu.Protocol.ReceiptBinding

namespace Protocol

open Wire Crypto

inductive Artefact where
  | proof (p : ProofOfInference)
  | token (t : DispatchToken)
  | ack (a : CompletionAck)
  | recruit (r : RecruitRequest)
  | receipt (r : RoutingReceipt)

inductive ArtefactKind where
  | proof | token | ack | recruit | receipt
  deriving DecidableEq, Repr

namespace Artefact

def kind : Artefact → ArtefactKind
  | .proof _ => .proof
  | .token _ => .token
  | .ack _ => .ack
  | .recruit _ => .recruit
  | .receipt _ => .receipt

/-- The message under the signature; `none` is the panic on an endless payout list. -/
def signedBytes (C : Primitives) : Artefact → Option (List UInt8)
  | .proof p => some p.canonicalBytes
  | .token t => some t.canonicalBytes
  | .ack a => some (a.canonicalBytes C)
  | .recruit r => some r.canonicalBytes
  | .receipt r => r.intentMessageBytes

def signature : Artefact → List UInt8
  | .proof p => p.signature
  | .token t => t.signature
  | .ack a => a.signature
  | .recruit r => r.signature
  | .receipt r => r.signature

def verify (C : Primitives) : Artefact → Option (Except VerifyError Unit)
  | .proof p => some (p.verify C)
  | .token t => some (t.verify C)
  | .ack a => some (a.verifyPrimary C)
  | .recruit r => some (r.verify C)
  | .receipt r => r.verify C

end Artefact

def fieldNames : ArtefactKind → List String
  | .proof => ["request_id", "session_id", "node_peer_id", "client_address", "model_id", "input_tokens",
      "output_tokens", "latency_ms", "price_paid_nanox", "timestamp", "input_hash", "output_hash",
      "settlement_id", "escrow_tx_id", "node_pubkey"]
  | .token => ["request_id", "session_id", "client_pubkey", "primary_peer_id", "settlement_id",
      "max_price_nanox", "issued_at_ms", "deadline_ms", "coordinator_pubkey", "node_x25519_pubkey"]
  | .ack => ["request_id", "proof_ids", "aggregated_output_hash", "primary_pubkey"]
  | .recruit => ["request_id", "primary_pubkey", "model", "prompt_chunk", "max_price_nanox", "deadline_ms"]
  | .receipt => []

theorem fieldNames_injective : Function.Injective fieldNames := by
  intro a b same
  cases a <;> cases b <;> first | rfl | exact absurd same (by decide)

theorem signedBytes_shape (C : Primitives) {a : Artefact} {message : List UInt8}
    (signed : a.signedBytes C = some message) :
    (a.kind ≠ .receipt ∧ ∃ members, message = (Json.object members).render ∧
      members.map Prod.fst = fieldNames a.kind) ∨
    (a.kind = .receipt ∧ ∃ rest, message = intentRoutingReceipt :: rest) := by
  cases a with
  | proof p =>
    cases signed
    exact .inl ⟨by simp [Artefact.kind], _, rfl, rfl⟩
  | token t =>
    cases signed
    exact .inl ⟨by simp [Artefact.kind], _, rfl, rfl⟩
  | ack a =>
    cases signed
    exact .inl ⟨by simp [Artefact.kind], _, rfl, rfl⟩
  | recruit r =>
    cases signed
    exact .inl ⟨by simp [Artefact.kind], _, rfl, rfl⟩
  | receipt r =>
    refine .inr ⟨rfl, ?_⟩
    exact ⟨_, IntentMessage.toBytes_eq_ok (RoutingReceipt.toBytes_of_intentMessageBytes signed)⟩

theorem render_object_ne_intent (members : List (String × Json)) (rest : List UInt8) :
    (Json.object members).render ≠ intentRoutingReceipt :: rest := by
  intro same
  obtain ⟨b, tail, shape, kind⟩ := render_head (Json.object members)
  rw [same, List.cons.injEq] at shape
  rw [← shape.1] at kind
  have unread : kindOfByte intentRoutingReceipt = none := by decide
  rw [unread] at kind
  cases kind

theorem signedBytes_kind (C : Primitives) {a b : Artefact} {message : List UInt8}
    (left : a.signedBytes C = some message) (right : b.signedBytes C = some message) : a.kind = b.kind := by
  rcases signedBytes_shape C left with ⟨_, ms, json, names⟩ | ⟨receipt, rest, bytes⟩
  · rcases signedBytes_shape C right with ⟨_, ns, json', names'⟩ | ⟨_, rest', bytes'⟩
    · have same := Json.render_injective (json.symm.trans json')
      rw [Json.object.injEq] at same
      rw [same, names'] at names
      exact fieldNames_injective names.symm
    · exact absurd (json.symm.trans bytes') (render_object_ne_intent ms rest')
  · rcases signedBytes_shape C right with ⟨_, ns, json', _⟩ | ⟨receipt', _, _⟩
    · exact absurd (json'.symm.trans bytes) (render_object_ne_intent ns rest)
    · rw [receipt, receipt']

theorem verify_accepts {C : Primitives} {a : Artefact} (accepted : a.verify C = some (.ok ())) :
    ∃ message holder, a.signedBytes C = some message ∧
      verifyMessage C holder a.signature message = .ok () := by
  cases a with
  | proof p => exact ⟨_, _, rfl, Option.some.inj accepted⟩
  | token t => exact ⟨_, _, rfl, Option.some.inj accepted⟩
  | ack a => exact ⟨_, _, rfl, Option.some.inj accepted⟩
  | recruit r => exact ⟨_, _, rfl, Option.some.inj accepted⟩
  | receipt r =>
    cases encoded : r.intentMessageBytes with
    | none =>
      change r.verify C = _ at accepted
      unfold RoutingReceipt.verify at accepted
      split at accepted
      · cases parse : signatureFromSlice r.signature with
        | none => simp [parse] at accepted
        | some parsed => simp [parse, encoded] at accepted
      · simp at accepted
    | some message =>
      change r.verify C = _ at accepted
      rw [RoutingReceipt.verify_eq encoded] at accepted
      exact ⟨message, r.coordinatorPubkey, encoded, Option.some.inj accepted⟩

/-- Artefacts of different kinds are never signed over the same bytes, so no signature made for one
    kind is accepted on another. -/
theorem signatures_separate_kinds (C : Primitives) (a b : Artefact) (different : a.kind ≠ b.kind) :
    (∀ message, a.signedBytes C = some message → b.signedBytes C ≠ some message) ∧
    ∀ (key : C.SigningKey) (message : List UInt8), a.signedBytes C = some message →
      C.Binds key message → b.signature = signMessage C key message → b.verify C ≠ some (.ok ()) := by
  refine ⟨fun message left right => different (signedBytes_kind C left right), ?_⟩
  intro key message left binds carried accepted
  obtain ⟨other, holder, right, verified⟩ := verify_accepts accepted
  rw [carried] at verified
  rw [verifyMessage_binds binds verified] at right
  exact different (signedBytes_kind C left right)

theorem proof_bytes_never_sign_ack :
    let C := Primitives.marking []
    (Artefact.proof sampleProof).kind ≠ (Artefact.ack sampleAck).kind ∧
      sampleAck.canonicalBytes C ≠ sampleProof.canonicalBytes := by
  intro C
  have different : (Artefact.proof sampleProof).kind ≠ (Artefact.ack sampleAck).kind := by decide
  have apart := (signatures_separate_kinds C (.proof sampleProof) (.ack sampleAck) different).1 _ rfl
  exact ⟨different, fun same => apart (congrArg some same)⟩

end Protocol
