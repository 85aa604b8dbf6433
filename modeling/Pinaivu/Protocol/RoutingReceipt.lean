import Pinaivu.Wire.Bcs
import Pinaivu.Wire.Text
import Pinaivu.Protocol.Types
import Pinaivu.Protocol.Signing

namespace Protocol

open Wire Crypto

def intentRoutingReceipt : UInt8 := 1

structure Payout where
  suiAddress : String
  amountNanox : UInt64
  deriving DecidableEq, Repr

structure RoutingReceipt where
  requestId : RequestId
  clientId : String
  primaryPeerId : NodePeerId
  helperPeerIds : List NodePeerId
  bidSetHash : Digest
  proofIds : List Digest
  aggregatedOutputHash : Digest
  payouts : List Payout
  timestampMs : UInt64
  coordinatorPubkey : PublicKey
  signature : List UInt8
  deriving DecidableEq

structure PayoutBcs where
  suiAddress : Vector UInt8 32
  amount : UInt64
  deriving DecidableEq

structure ReceiptPayloadBcs where
  requestId : List UInt8
  aggregatedOutputHash : List UInt8
  payouts : List PayoutBcs
  deriving DecidableEq

structure IntentMessage where
  intent : UInt8
  timestampMs : UInt64
  payload : ReceiptPayloadBcs
  deriving DecidableEq

/-- An address is a fixed array, so it goes out without a length. -/
def PayoutBcs.encode (p : PayoutBcs) : List UInt8 := p.suiAddress.toList ++ littleEndian64 p.amount

def bcsBytes (bytes : List UInt8) : Except BcsError (List UInt8) := bcsSequence (fun b => [b]) bytes

def IntentMessage.toBytes (m : IntentMessage) : Except BcsError (List UInt8) := do
  let requestId ← bcsBytes m.payload.requestId
  let aggregatedOutputHash ← bcsBytes m.payload.aggregatedOutputHash
  let payouts ← bcsSequence PayoutBcs.encode m.payload.payouts
  return m.intent :: (littleEndian64 m.timestampMs ++ (requestId ++ (aggregatedOutputHash ++ payouts)))

/-- `trim_start_matches("0x")`: the pattern is removed as often as it repeats. -/
def trimStart0x : List Char → List Char
  | '0' :: 'x' :: rest => trimStart0x rest
  | text => text

theorem trimStart0x_of_hex {text : List Char} (symbols : ∀ c ∈ text, (hexValue c).isSome = true) :
    trimStart0x text = text := by
  unfold trimStart0x
  split
  · rename_i rest
    have := symbols 'x' (by simp)
    exact absurd this (by decide)
  · rfl

def zeroAddress : Vector UInt8 32 := Vector.replicate 32 0

def leftPad (bytes : List UInt8) (fits : bytes.length ≤ 32) : Vector UInt8 32 :=
  ⟨(List.replicate (32 - bytes.length) 0 ++ bytes).toArray, by simp; omega⟩

def parseSuiAddress (s : String) : Vector UInt8 32 :=
  match hexDecode (trimStart0x (trim s.toList)) with
  | some bytes => if fits : bytes.length ≤ 32 then leftPad bytes fits else zeroAddress
  | none => zeroAddress

def payoutBcs (p : Payout) : PayoutBcs where
  suiAddress := parseSuiAddress p.suiAddress
  amount := p.amountNanox

def RoutingReceipt.intentMessage (r : RoutingReceipt) : IntentMessage where
  intent := intentRoutingReceipt
  timestampMs := r.timestampMs
  payload :=
    { requestId := r.requestId.bytes.toList
      aggregatedOutputHash := r.aggregatedOutputHash.toList
      payouts := r.payouts.map payoutBcs }

/-- `none` is the panic of `expect` when the payout list is longer than bcs allows. -/
def RoutingReceipt.intentMessageBytes (r : RoutingReceipt) : Option (List UInt8) :=
  r.intentMessage.toBytes.toOption

def RoutingReceipt.sign (C : Primitives) (key : C.SigningKey) (r : RoutingReceipt) :
    Option RoutingReceipt := do
  let named := { r with coordinatorPubkey := C.verifyingKey key }
  let message ← named.intentMessageBytes
  return { named with signature := signMessage C key message }

def RoutingReceipt.verify (C : Primitives) (r : RoutingReceipt) : Option (Except VerifyError Unit) :=
  if C.validKey r.coordinatorPubkey then
    match signatureFromSlice r.signature with
    | none => some (.error .invalidSignatureBytes)
    | some parsed => do
      let message ← r.intentMessageBytes
      return if C.verify r.coordinatorPubkey message parsed then .ok () else .error .signatureMismatch
  else some (.error .invalidPublicKey)

theorem RoutingReceipt.verify_eq {C : Primitives} {r : RoutingReceipt} {message : List UInt8}
    (encoded : r.intentMessageBytes = some message) :
    r.verify C = some (verifyMessage C r.coordinatorPubkey r.signature message) := by
  unfold RoutingReceipt.verify verifyMessage
  split
  · cases signatureFromSlice r.signature with
    | none => rfl
    | some parsed => simp [encoded]
  · rfl

example : parseSuiAddress "0x0abc" = leftPad [10, 188] (by decide) := by decide

example : parseSuiAddress "0xabc" = zeroAddress := by decide

end Protocol
