import Mathlib.Data.Rat.Defs
import Pinaivu.Protocol.Artefacts
import Pinaivu.Protocol.RoutingReceipt

namespace Protocol

open Crypto

abbrev Multiaddr := String

/-- A libp2p peer id, named by the text `to_string` gives it. -/
structure PeerId where
  text : String
  deriving DecidableEq, Repr

inductive PrivacyLevel where
  | standard
  | privateOnly
  | fragmented
  | maximum
  deriving DecidableEq, Repr

inductive ClientSessionIntent where
  | new
  | continued
  deriving DecidableEq, Repr

structure InferenceRequest where
  requestId : RequestId
  sessionId : SessionId
  model : String
  privacy : PrivacyLevel
  sessionIntent : ClientSessionIntent
  deriving DecidableEq

structure InferenceBid where
  requestId : RequestId
  nodePeerId : NodePeerId
  pricePer1k : NanoX
  latencyMs : UInt32
  reputation : ℚ
  httpEndpoint : String
  payoutAddress : String
  nodeX25519Pubkey : Option (Vector UInt8 32)
  deriving DecidableEq

structure NodeCapabilities where
  peerId : NodePeerId
  models : List String
  maxConcurrentJobs : UInt32
  deriving DecidableEq

structure InferenceDispatch where
  dispatchToken : DispatchToken
  sessionKey : String
  newUserMessage : String
  memwalContext : Option String
  deriving DecidableEq

structure InferenceReply where
  requestId : RequestId
  sessionId : SessionId
  content : String
  inputTokens : UInt32
  outputTokens : UInt32
  latencyMs : UInt32
  error : Option String
  deriving DecidableEq

structure CompletionResponse where
  accepted : Bool
  routingReceipt : Option RoutingReceipt
  reason : Option String
  deriving DecidableEq

def CompletionResponse.ok (receipt : RoutingReceipt) : CompletionResponse :=
  ⟨true, some receipt, none⟩

def CompletionResponse.rejected (reason : String) : CompletionResponse := ⟨false, none, some reason⟩

def VerifyError.message : VerifyError → String
  | .invalidPublicKey => "public key bytes are not a valid Ed25519 verifying key"
  | .invalidSignatureBytes => "signature bytes are not a well-formed Ed25519 signature"
  | .signatureMismatch => "signature does not verify against the embedded public key"

def Topics.bids : String := "/pinaivu/bids/1.0.0"
def Topics.announce : String := "/pinaivu/announce/1.0.0"

/-- A gossipsub message: `source` is the author that strict validation has checked. -/
structure GossipMessage where
  source : Option PeerId
  data : List UInt8
  topic : String
  deriving DecidableEq

end Protocol
