import Pinaivu.Wire.Double
import Pinaivu.Protocol.RoutingReceipt

namespace Sidecar

open Wire Crypto Protocol

structure PayoutJson where
  suiAddress : String
  amountNanox : UInt64

structure SettleReq where
  requestId : String
  payeeSuiAddress : String
  amountNanox : UInt64
  timestampMs : UInt64
  aggregatedOutputHash : String
  payouts : List PayoutJson
  signature : String

def settleReq (receipt : RoutingReceipt) (payeeSuiAddress : String) (amountNanox : UInt64) :
    SettleReq where
  requestId := receipt.requestId.toString
  payeeSuiAddress := payeeSuiAddress
  amountNanox := amountNanox
  timestampMs := receipt.timestampMs
  aggregatedOutputHash := String.ofList (hexEncode receipt.aggregatedOutputHash.toList)
  payouts := receipt.payouts.map fun p => ⟨p.suiAddress, p.amountNanox⟩
  signature := String.ofList (hexEncode receipt.signature)

/-- The body after `express.json()`: every number is a double, here always an integral one. -/
structure SettleBody where
  requestId : String
  payeeSuiAddress : String
  amountNanox : Nat
  timestampMs : Nat
  aggregatedOutputHash : String
  payouts : List (String × Nat)
  signature : String

def SettleReq.receive (req : SettleReq) : SettleBody where
  requestId := req.requestId
  payeeSuiAddress := req.payeeSuiAddress
  amountNanox := roundToDouble req.amountNanox.toNat
  timestampMs := roundToDouble req.timestampMs.toNat
  aggregatedOutputHash := req.aggregatedOutputHash
  payouts := req.payouts.map fun p => (p.suiAddress, roundToDouble p.amountNanox.toNat)
  signature := req.signature

/-- `SettleSchema` on a body of this shape: only `.positive()` on the amount can fail. -/
def settleSchema (body : SettleBody) : Bool := 0 < body.amountNanox

/-- `normalizeSuiAddress` lower-cases before it looks for the prefix. -/
def addressDigits : List Char → List Char
  | '0' :: 'x' :: digits => digits
  | '0' :: 'X' :: digits => digits
  | digits => digits

theorem size_of_width {bytes : List UInt8} (width : bytes.length = 32) : bytes.toArray.size = 32 := by
  simpa using width

/-- `tx.pure.address`: 1 to 64 hexadecimal digits after the optional prefix, padded on the left. -/
def pureAddress (s : String) : Option (Vector UInt8 32) :=
  let digits := addressDigits s.toList
  if 0 < digits.length ∧ digits.length ≤ 64 then
    match hexDecode (List.replicate (64 - digits.length) '0' ++ digits) with
    | some bytes => if width : bytes.length = 32 then some ⟨bytes.toArray, size_of_width width⟩ else none
    | none => none
  else none

def pureU64 (n : Nat) : Option UInt64 := if n < 2 ^ 64 then some (UInt64.ofNat n) else none

def uuidStringToBytes (s : String) : Option (List UInt8) :=
  let hex := s.toList.filter (· ≠ '-')
  if hex.length = 32 ∧ hex.all (fun c => (hexValue c).isSome) then hexDecode hex else none

/-- `Buffer.from(s, "hex")` stops at the first pair that is not hexadecimal. -/
def bufferFromHex : List Char → List UInt8
  | high :: low :: rest =>
    match hexValue high, hexValue low with
    | some h, some l => UInt8.ofNat (16 * h + l) :: bufferFromHex rest
    | _, _ => []
  | _ => []

/-- The arguments of the `vault::settle` move call; `payouts` holds those of `receipts::new_payout`. -/
structure SettleCall where
  requestId : List UInt8
  payee : Vector UInt8 32
  amount : UInt64
  timestampMs : UInt64
  aggregatedOutputHash : List UInt8
  payouts : List PayoutBcs
  signature : List UInt8

def newPayout (p : String × Nat) : Option PayoutBcs := do
  let suiAddress ← pureAddress p.1
  let amount ← pureU64 p.2
  return { suiAddress, amount }

/-- The transaction builder of `POST /sui/settle`; `none` when it throws. -/
def buildSettle (body : SettleBody) : Option SettleCall := do
  let payouts ← body.payouts.mapM newPayout
  let requestId ← uuidStringToBytes body.requestId
  let payee ← pureAddress body.payeeSuiAddress
  let amount ← pureU64 body.amountNanox
  let timestampMs ← pureU64 body.timestampMs
  return {
    requestId, payee, amount, timestampMs
    aggregatedOutputHash := bufferFromHex body.aggregatedOutputHash.toList
    payouts
    signature := bufferFromHex body.signature.toList }

structure Config where
  packageId : String
  vaultId : String
  activeEnclaveObjectId : String

/-- `POST /sui/settle` up to the submission of the transaction it builds. -/
def postSettle (config : Config) (body : SettleBody) : Option SettleCall :=
  if settleSchema body then
    if config.packageId = "" ∨ config.vaultId = "" then none
    else if config.activeEnclaveObjectId = "" then none
    else buildSettle body
  else none

/-- The message `receipts::verify_completion_receipt` rebuilds from the call. -/
def SettleCall.intentMessage (call : SettleCall) : IntentMessage where
  intent := intentRoutingReceipt
  timestampMs := call.timestampMs
  payload :=
    { requestId := call.requestId
      aggregatedOutputHash := call.aggregatedOutputHash
      payouts := call.payouts }

end Sidecar
