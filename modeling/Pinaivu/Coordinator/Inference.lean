import Mathlib.Data.List.Infix
import Pinaivu.Coordinator.Auction
import Pinaivu.Coordinator.Calls
import Pinaivu.Coordinator.Externals

namespace Coordinator

open Protocol Crypto Wire Async

def dispatchDeadlineMs : UInt64 := 60000
def defaultSettlementId : String := "free"

structure ChatCompletionRequest where
  model : String
  messages : List ChatMessage
  clientPubkeyHex : String
  maxPriceNanox : Option UInt64
  privacy : Option String
  sessionId : Option SessionId
  clientX25519PubkeyHex : Option String
  messagesEncrypted : Option String
  messagesNonce : Option String
  sessionKey : Option String
  memwalContext : Option String

def toKey (bytes : List UInt8) : Option (Vector UInt8 32) :=
  if width : bytes.length = 32 then some ⟨bytes.toArray, by simpa using width⟩ else none

def decodeHexPubkey (s : String) : Except AppError PublicKey :=
  match hexDecode s.toList with
  | none => .error (.badRequest "client_pubkey_hex must be hex")
  | some raw =>
    match toKey raw with
    | none => .error (.badRequest "client_pubkey_hex must be 32 bytes")
    | some key => .ok key

def parsePrivacy (s : Option String) : PrivacyLevel :=
  let level := (s.getD "standard").map Char.toLower
  if level = "private" then .privateOnly
  else if level = "fragmented" then .fragmented
  else if level = "maximum" then .maximum
  else .standard

def decryptMessages (X : Externals) (x25519Hex encB64 nonceB64 : String) :
    Except AppError (List ChatMessage) := do
  let clientPubBytes ← (hexDecode x25519Hex.toList).elim
    (.error (.badRequest "client_x25519_pubkey_hex must be valid hex")) .ok
  let clientPub ← (toKey clientPubBytes).elim
    (.error (.badRequest "client_x25519_pubkey_hex must be exactly 32 bytes")) .ok
  let ciphertext ← (X.decodeBase64 encB64).elim
    (.error (.badRequest "messages_encrypted must be valid base64")) .ok
  let nonce ← (X.decodeBase64 nonceB64).elim
    (.error (.badRequest "messages_nonce must be valid base64")) .ok
  if nonce.length ≠ 12 then
    .error (.badRequest "messages_nonce must decode to exactly 12 bytes")
  else
    let plaintext ← (X.decrypt clientPub nonce ciphertext).elim
      (.error (.badRequest "prompt decryption failed")) .ok
    (X.messagesFromSlice plaintext).elim
      (.error (.badRequest "decrypted payload is not a valid JSON messages array")) .ok

def decryptMessagesIfEncrypted (X : Externals) (req : ChatCompletionRequest) :
    Except AppError (List ChatMessage) :=
  match req.clientX25519PubkeyHex, req.messagesEncrypted, req.messagesNonce with
  | some x25519Hex, some encB64, some nonceB64 => decryptMessages X x25519Hex encB64 nonceB64
  | none, none, none => .ok req.messages
  | _, _, _ => .error (.badRequest ("encrypted mode requires all three fields: " ++
      "client_x25519_pubkey_hex, messages_encrypted, messages_nonce"))

def newUserMessage (messages : List ChatMessage) : Except AppError String :=
  match messages.reverse.find? (·.role = "user") with
  | some message => .ok message.content
  | none => .error (.badRequest "messages must include a user turn")

def publishError (e : String) : AppError :=
  if "NoPeersSubscribed".toList <:+: e.toList ∨ "InsufficientPeers".toList <:+: e.toList then
    .noNodes "no GPU nodes subscribed to this model topic"
  else .internal ("mesh publish: " ++ e)

def publishRequest (request : InferenceRequest) : Task (Except String BidChannelId) := do
  let tx ← call (.newOneshot request.requestId)
  if ← call (.sendCommand (.publish request tx)) then call (.awaitPublish tx)
  else return .error "send publish command"

def dispatchInference (peer : PeerId) (dispatch : InferenceDispatch) :
    Task (Except String InferenceReply) := do
  let tx ← call (.newOneshot dispatch.dispatchToken.requestId)
  if ← call (.sendCommand (.dispatchInference peer dispatch tx)) then call (.awaitInference tx)
  else return .error "send dispatch-inference command"

def fetchWarmthMap (pool : Bool) (sessionId : SessionId) : Task WarmthMap := do
  if pool then
    match ← call (.selectSessionCache sessionId) with
    | .ok rows => return warmthMap rows
    | .error _ => return fun _ => none
  else return fun _ => none

/-- Collected into a map, so the last bid of a peer decides. -/
def payoutAddresses (bids : List InferenceBid) : PayoutAddresses :=
  ((bids.filter (·.payoutAddress ≠ "")).map fun b => (b.nodePeerId.value, b.payoutAddress)).foldl
    (fun found entry => Function.update found entry.1 (some entry.2)) fun _ => none

def dispatchToken (C : Primitives) (enclaveKey : C.SigningKey) (requestId : RequestId)
    (sessionId : SessionId) (clientPubkey : PublicKey) (winner : InferenceBid)
    (maxPriceNanox : Option UInt64) (nowMs : UInt64) : DispatchToken :=
  DispatchToken.sign C enclaveKey
    { requestId, sessionId, clientPubkey
      primaryPeerId := winner.nodePeerId
      settlementId := defaultSettlementId
      maxPriceNanox := ⟨maxPriceNanox.getD (UInt64.ofNat (2 ^ 64 - 1))⟩
      issuedAtMs := nowMs
      deadlineMs := nowMs + dispatchDeadlineMs
      coordinatorPubkey := Vector.replicate 32 0
      nodeX25519Pubkey := winner.nodeX25519Pubkey
      signature := [] }

def sessionKeyOr (given : Option String) : Task String :=
  match given with
  | some key => return key
  | none => call .randomSessionKey

/-- `chat_completions` from the winning bid on. -/
def dispatchToWinner (X : Externals) (C : Primitives) (enclaveKey : C.SigningKey)
    (req : ChatCompletionRequest) (requestId : RequestId) (sessionId : SessionId) (message : String)
    (winner : InferenceBid) : Task (Except AppError ChatCompletionResult) := do
  match decodeHexPubkey req.clientPubkeyHex with
  | .error e => return .error e
  | .ok clientPubkey =>
    let nowMs ← call .now
    let token := dispatchToken C enclaveKey requestId sessionId clientPubkey winner req.maxPriceNanox nowMs
    let sessionKey ← sessionKeyOr req.sessionKey
    match X.parsePeerId winner.nodePeerId.value with
    | .error e => return .error (.internal ("winning bid has invalid peer_id: " ++ e))
    | .ok peer =>
      match ← dispatchInference peer ⟨token, sessionKey, message, req.memwalContext⟩ with
      | .error e => return .error (.upstream ("node dispatch failed: " ++ e))
      | .ok reply =>
        match reply.error with
        | some err => return .error (.upstream ("node returned an error: " ++ err))
        | none =>
          return .ok ⟨requestId, sessionId, reply.content, sessionKey, reply.inputTokens,
            reply.outputTokens, reply.latencyMs⟩

def runAuction (X : Externals) (C : Primitives) (enclaveKey : C.SigningKey) (pool : Bool)
    (req : ChatCompletionRequest) (request : InferenceRequest) (message : String) :
    Task (Except AppError ChatCompletionResult) := do
  match ← publishRequest request with
  | .error e => return .error (publishError e)
  | .ok rx =>
    let bids ← call (.collectBids rx)
    let warmth ← fetchWarmthMap pool request.sessionId
    match pickWinnerWithWarmth bids warmth with
    | none => return .error (.noNodes "auction closed with no bids")
    | some winner =>
      let _ ← call (.sendCommand (.setPayoutAddresses request.requestId (payoutAddresses bids)))
      dispatchToWinner X C enclaveKey req request.requestId request.sessionId message winner

def sessionOf (given : Option SessionId) : Task (SessionId × ClientSessionIntent) :=
  match given with
  | some id => return (id, .continued)
  | none => do
    let id ← call .newUuid
    return (id, .new)

def chatCompletions (X : Externals) (C : Primitives) (enclaveKey : C.SigningKey) (pool : Bool)
    (req : ChatCompletionRequest) : Task (Except AppError ChatCompletionResult) := do
  let requestId ← call .newUuid
  let (sessionId, sessionIntent) ← sessionOf req.sessionId
  match decryptMessagesIfEncrypted X req >>= newUserMessage with
  | .error e => return .error e
  | .ok message =>
    runAuction X C enclaveKey pool req
      ⟨requestId, sessionId, req.model, parsePrivacy req.privacy, sessionIntent⟩ message

def serveChat (X : Externals) (C : Primitives) (enclaveKey : C.SigningKey) (pool : Bool)
    (req : ChatCompletionRequest) : Task Unit := do
  let result ← chatCompletions X C enclaveKey pool req
  call (.httpResponse result)

end Coordinator
