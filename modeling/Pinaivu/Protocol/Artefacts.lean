import Pinaivu.Protocol.Types
import Pinaivu.Protocol.Signing

namespace Protocol

open Wire Crypto

structure ProofOfInference where
  requestId : RequestId
  sessionId : SessionId
  nodePeerId : NodePeerId
  clientAddress : String
  modelId : String
  inputTokens : UInt32
  outputTokens : UInt32
  latencyMs : UInt32
  pricePaidNanox : NanoX
  timestamp : UInt64
  inputHash : Digest
  outputHash : Digest
  settlementId : String
  escrowTxId : Option String
  nodePubkey : PublicKey
  signature : List UInt8
  deriving DecidableEq

def ProofOfInference.canonical (p : ProofOfInference) : Json :=
  .object
    [("request_id", jsonUuid p.requestId),
     ("session_id", jsonUuid p.sessionId),
     ("node_peer_id", .string p.nodePeerId.value),
     ("client_address", .string p.clientAddress),
     ("model_id", .string p.modelId),
     ("input_tokens", .number p.inputTokens.toNat),
     ("output_tokens", .number p.outputTokens.toNat),
     ("latency_ms", .number p.latencyMs.toNat),
     ("price_paid_nanox", .number p.pricePaidNanox.value.toNat),
     ("timestamp", .number p.timestamp.toNat),
     ("input_hash", jsonBytes p.inputHash.toList),
     ("output_hash", jsonBytes p.outputHash.toList),
     ("settlement_id", .string p.settlementId),
     ("escrow_tx_id", jsonOption .string p.escrowTxId),
     ("node_pubkey", jsonBytes p.nodePubkey.toList)]

def ProofOfInference.canonicalBytes (p : ProofOfInference) : List UInt8 := p.canonical.render

def ProofOfInference.id (C : Primitives) (p : ProofOfInference) : Digest :=
  C.sha256 p.canonicalBytes

def ProofOfInference.sign (C : Primitives) (key : C.SigningKey) (p : ProofOfInference) :
    ProofOfInference :=
  let named := { p with nodePubkey := C.verifyingKey key }
  { named with signature := signMessage C key named.canonicalBytes }

def ProofOfInference.verify (C : Primitives) (p : ProofOfInference) : Except VerifyError Unit :=
  verifyMessage C p.nodePubkey p.signature p.canonicalBytes

structure DispatchToken where
  requestId : RequestId
  sessionId : SessionId
  clientPubkey : PublicKey
  primaryPeerId : NodePeerId
  settlementId : String
  maxPriceNanox : NanoX
  issuedAtMs : UInt64
  deadlineMs : UInt64
  coordinatorPubkey : PublicKey
  nodeX25519Pubkey : Option (Vector UInt8 32)
  signature : List UInt8
  deriving DecidableEq

def DispatchToken.canonical (t : DispatchToken) : Json :=
  .object
    [("request_id", jsonUuid t.requestId),
     ("session_id", jsonUuid t.sessionId),
     ("client_pubkey", jsonBytes t.clientPubkey.toList),
     ("primary_peer_id", .string t.primaryPeerId.value),
     ("settlement_id", .string t.settlementId),
     ("max_price_nanox", .number t.maxPriceNanox.value.toNat),
     ("issued_at_ms", .number t.issuedAtMs.toNat),
     ("deadline_ms", .number t.deadlineMs.toNat),
     ("coordinator_pubkey", jsonBytes t.coordinatorPubkey.toList),
     ("node_x25519_pubkey", jsonOption (fun key => jsonBytes key.toList) t.nodeX25519Pubkey)]

def DispatchToken.canonicalBytes (t : DispatchToken) : List UInt8 := t.canonical.render

def DispatchToken.sign (C : Primitives) (key : C.SigningKey) (t : DispatchToken) : DispatchToken :=
  let named := { t with coordinatorPubkey := C.verifyingKey key }
  { named with signature := signMessage C key named.canonicalBytes }

def DispatchToken.verify (C : Primitives) (t : DispatchToken) : Except VerifyError Unit :=
  verifyMessage C t.coordinatorPubkey t.signature t.canonicalBytes

structure RecruitRequest where
  requestId : RequestId
  primaryPubkey : PublicKey
  model : String
  promptChunk : String
  maxPriceNanox : UInt64
  deadlineMs : UInt64
  signature : List UInt8
  deriving DecidableEq

def RecruitRequest.canonical (r : RecruitRequest) : Json :=
  .object
    [("request_id", jsonUuid r.requestId),
     ("primary_pubkey", jsonBytes r.primaryPubkey.toList),
     ("model", .string r.model),
     ("prompt_chunk", .string r.promptChunk),
     ("max_price_nanox", .number r.maxPriceNanox.toNat),
     ("deadline_ms", .number r.deadlineMs.toNat)]

def RecruitRequest.canonicalBytes (r : RecruitRequest) : List UInt8 := r.canonical.render

def RecruitRequest.sign (C : Primitives) (key : C.SigningKey) (r : RecruitRequest) :
    RecruitRequest :=
  let named := { r with primaryPubkey := C.verifyingKey key }
  { named with signature := signMessage C key named.canonicalBytes }

def RecruitRequest.verify (C : Primitives) (r : RecruitRequest) : Except VerifyError Unit :=
  verifyMessage C r.primaryPubkey r.signature r.canonicalBytes

/-- Sent by the primary node: the proofs of every contributing node, primary first. -/
structure CompletionAck where
  requestId : RequestId
  proofs : List ProofOfInference
  aggregatedOutputHash : Digest
  primaryPubkey : PublicKey
  signature : List UInt8
  deriving DecidableEq

def CompletionAck.proofIds (C : Primitives) (ack : CompletionAck) : List Digest :=
  ack.proofs.map (·.id C)

def CompletionAck.canonical (C : Primitives) (ack : CompletionAck) : Json :=
  .object
    [("request_id", jsonUuid ack.requestId),
     ("proof_ids", .array ((ack.proofIds C).map fun digest => jsonBytes digest.toList)),
     ("aggregated_output_hash", jsonBytes ack.aggregatedOutputHash.toList),
     ("primary_pubkey", jsonBytes ack.primaryPubkey.toList)]

def CompletionAck.canonicalBytes (C : Primitives) (ack : CompletionAck) : List UInt8 :=
  (ack.canonical C).render

def CompletionAck.sign (C : Primitives) (key : C.SigningKey) (ack : CompletionAck) :
    CompletionAck :=
  let named := { ack with primaryPubkey := C.verifyingKey key }
  { named with signature := signMessage C key (named.canonicalBytes C) }

def CompletionAck.verifyPrimary (C : Primitives) (ack : CompletionAck) : Except VerifyError Unit :=
  verifyMessage C ack.primaryPubkey ack.signature (ack.canonicalBytes C)

def CompletionAck.verifyAllProofs (C : Primitives) (ack : CompletionAck) :
    Except VerifyError Unit :=
  ack.proofs.forM (·.verify C)

theorem ProofOfInference.verify_sign {C : Primitives} (correct : C.Correct) (key : C.SigningKey)
    (p : ProofOfInference) : (p.sign C key).verify C = .ok () :=
  verifyMessage_signed correct key _

theorem CompletionAck.verifyPrimary_sign {C : Primitives} (correct : C.Correct) (key : C.SigningKey)
    (ack : CompletionAck) : (ack.sign C key).verifyPrimary C = .ok () :=
  verifyMessage_signed correct key _

theorem CompletionAck.verifyAllProofs_ok_iff (C : Primitives) (ack : CompletionAck) :
    ack.verifyAllProofs C = .ok () ↔ ∀ p ∈ ack.proofs, p.verify C = .ok () := by
  rw [CompletionAck.verifyAllProofs]
  induction ack.proofs with
  | nil => simp [Pure.pure, Except.pure]
  | cons p ps ih =>
    rw [List.forall_mem_cons, ← ih]
    change (p.verify C >>= fun _ => ps.forM (·.verify C)) = .ok () ↔ _
    cases p.verify C with
    | error e => simp [Bind.bind, Except.bind]
    | ok => simp [Bind.bind, Except.bind]

end Protocol
