import Pinaivu.Async.Routine
import Pinaivu.Coordinator.PeerRegistry

namespace Coordinator

open Protocol Crypto Async

/-- A `HashMap<String, String>` from peer id to Sui address. -/
abbrev PayoutAddresses := String → Option String

structure OneshotId where
  request : RequestId
  serial : Nat
  deriving DecidableEq

structure BidChannelId where
  request : RequestId
  serial : Nat
  deriving DecidableEq

inductive MeshCommand where
  | publish (request : InferenceRequest) (replyTx : OneshotId)
  | setPayoutAddresses (requestId : RequestId) (addresses : PayoutAddresses)
  | dial (addr : Multiaddr) (replyTx : OneshotId)
  | listenAddrs (replyTx : OneshotId)
  | dispatchInference (peer : PeerId) (dispatch : InferenceDispatch) (replyTx : OneshotId)

structure SettlementJob where
  requestId : RequestId
  receiptJson : String
  deriving DecidableEq

structure PendingPayment where
  id : Uuid
  requestId : RequestId
  payeePeerId : String
  payeeSuiAddress : String
  amountNanox : Int64
  deriving DecidableEq

inductive AppError where
  | badRequest (message : String)
  | noNodes (message : String)
  | upstream (message : String)
  | internal (message : String)
  deriving DecidableEq, Repr

structure ChatCompletionResult where
  requestId : RequestId
  sessionId : SessionId
  content : String
  sessionKey : String
  inputTokens : UInt32
  outputTokens : UInt32
  latencyMs : UInt32
  deriving DecidableEq

/-- Where the coordinator's tasks touch anything outside their own memory. -/
inductive Call where
  | newUuid
  | now
  | randomSessionKey
  | sendResponse (channel : Nat) (response : CompletionResponse)
  | addAddress (peer : PeerId) (addr : Multiaddr)
  | upsertPeer (peer : PeerId) (capabilities : NodeCapabilities) (addrs : List Multiaddr) (nowMs : UInt64)
  | observeAddrs (peer : PeerId) (addrs : List Multiaddr)
  | evictStale (nowMs : UInt64)
  | putReceipt (receipt : RoutingReceipt)
  | upsertSessionCache (peer : String) (session : SessionId)
  | selectSessionCache (session : SessionId)
  | insertPayment (row : PendingPayment)
  | selectPending (requestId : RequestId)
  | markSubmitted (id : Uuid) (txDigest : String)
  | markFailed (id : Uuid)
  | settle (receipt : RoutingReceipt) (payee : String) (amount : UInt64)
  | trySendJob (job : SettlementJob)
  | recvJob
  | pushRequest (job : SettlementJob)
  | jobResult (job : SettlementJob) (result : Except String Unit)
  | sendBid (tx : BidChannelId) (bid : InferenceBid)
  | collectBids (rx : BidChannelId)
  | newOneshot (request : RequestId)
  | sendCommand (command : MeshCommand)
  | replyPublish (tx : OneshotId) (result : Except String BidChannelId)
  | awaitPublish (rx : OneshotId)
  | replyInference (tx : OneshotId) (result : Except String InferenceReply)
  | awaitInference (rx : OneshotId)
  | replyDial (tx : OneshotId) (result : Except String Unit)
  | replyListenAddrs (tx : OneshotId) (addrs : List Multiaddr)
  | httpResponse (result : Except AppError ChatCompletionResult)
  | panic

/-- What a call can be answered with. Nothing answers a panic: the task ends there. -/
abbrev Answer : Call → Type
  | .newUuid => Uuid
  | .now => UInt64
  | .randomSessionKey => String
  | .putReceipt _ => Except String Unit
  | .upsertSessionCache _ _ => Except String Unit
  | .selectSessionCache _ => Except String (List (String × String))
  | .insertPayment _ => Except String Unit
  | .selectPending _ => Except String (List PendingPayment)
  | .markSubmitted _ _ => Except String Unit
  | .markFailed _ => Except String Unit
  | .settle _ _ _ => Except String String
  | .trySendJob _ => Except String Unit
  | .recvJob => SettlementJob
  | .pushRequest _ => Except String Unit
  | .sendBid _ _ => Bool
  | .collectBids _ => List InferenceBid
  | .newOneshot _ => OneshotId
  | .sendCommand _ => Bool
  | .awaitPublish _ => Except String BidChannelId
  | .awaitInference _ => Except String InferenceReply
  | .panic => Empty
  | _ => Unit

abbrev Task := Routine Call Answer

def call (op : Call) : Task (Answer op) := .perform op

end Coordinator
