import Pinaivu.Wire.Base64
import Pinaivu.Crypto.Enclave
import Pinaivu.Coordinator.BidOrigin
import Pinaivu.Coordinator.Registration

namespace Coordinator

open Protocol Crypto Wire Async

variable {C : Primitives} {E : Exchange C} {X : Externals} {pair : EnclaveKeyPair E}

/-- The externals inside the enclave: the strict standard alphabet, and the key agreed with the client. -/
def Externals.inEnclave (X : Externals) (pair : EnclaveKeyPair E) : Externals :=
  { X with
    decodeBase64 := fun text => base64Decode text.toList
    decrypt := fun clientPub nonce ciphertext => E.decrypt (deriveAesKey C (pair.ecdh clientPub)) nonce ciphertext }

structure EnclaveHealthResponse where
  publicKeyHex : String
  x25519PubkeyHex : String
  peerId : Option String
  uptimeMs : UInt64
  enclaveObjectId : Option String
  suiTxDigest : Option String
  tlsCertFingerprint : Option String

def hexText (bytes : List UInt8) : String := String.ofList (hexEncode bytes)

/-- `GET /enclave_health`. -/
def enclaveHealth (pair : EnclaveKeyPair E) (peerIdFromEd25519 : PublicKey → Option String)
    (onChain : Option RegisteredEnclave) (tlsCertFingerprint : Option String) (startedAtMs nowMs : UInt64) :
    EnclaveHealthResponse where
  publicKeyHex := hexText pair.publicKeyBytes.toList
  x25519PubkeyHex := hexText pair.x25519PublicKey.toList
  peerId := peerIdFromEd25519 pair.publicKeyBytes
  uptimeMs := if startedAtMs ≤ nowMs then nowMs - startedAtMs else 0
  enclaveObjectId := onChain.map (·.enclaveObjectId)
  suiTxDigest := onChain.map (·.txDigest)
  tlsCertFingerprint := tlsCertFingerprint

def messageJson (message : ChatMessage) : Json :=
  .object [("content", .string message.content), ("role", .string message.role)]

def Externals.ReadsMessages (X : Externals) : Prop :=
  ∀ messages : List ChatMessage, X.messagesFromSlice (Json.array (messages.map messageJson)).render = some messages

structure Client where
  secret : X25519Key
  nonce : Vector UInt8 12

structure Sealed where
  clientX25519PubkeyHex : String
  messagesEncrypted : String
  messagesNonce : String

def clientEncrypt (E : Exchange C) (client : Client) (enclaveX25519Hex : String) (messages : List ChatMessage) :
    Option Sealed := do
  let enclavePubBytes ← hexDecode enclaveX25519Hex.toList
  let enclavePub ← toKey enclavePubBytes
  let aesKey := deriveAesKey C (E.diffieHellman client.secret enclavePub)
  let ciphertext ← E.encrypt aesKey client.nonce.toList (Json.array (messages.map messageJson)).render
  return {
    clientX25519PubkeyHex := hexText (E.publicKey client.secret).toList
    messagesEncrypted := String.ofList (base64Encode ciphertext)
    messagesNonce := String.ofList (base64Encode client.nonce.toList) }

def ChatCompletionRequest.plain (req : ChatCompletionRequest) : Bool :=
  req.clientX25519PubkeyHex.isNone && req.messagesEncrypted.isNone && req.messagesNonce.isNone

def ChatCompletionRequest.carry (req : ChatCompletionRequest) (prompt : Sealed) : ChatCompletionRequest :=
  { req with
    messages := []
    clientX25519PubkeyHex := some prompt.clientX25519PubkeyHex
    messagesEncrypted := some prompt.messagesEncrypted
    messagesNonce := some prompt.messagesNonce }

/-- A plaintext call as a client in encrypted mode posts it. -/
def sealRequest (E : Exchange C) (health : EnclaveHealthResponse) (client : Client) (req : ChatCompletionRequest) :
    Option ChatCompletionRequest :=
  if req.plain then (clientEncrypt E client health.x25519PubkeyHex req.messages).map req.carry else none

theorem toKey_toList (key : Vector UInt8 32) : toKey key.toList = some key := by
  have width : key.toList.length = 32 := Vector.length_toList
  rw [toKey, dif_pos width]
  exact congrArg some (Vector.toArray_inj.mp key.toArray.toArray_toList)

theorem decryptMessages_sealed (correct : E.Correct) (reads : X.ReadsMessages) {client : Client}
    {messages : List ChatMessage} {prompt : Sealed}
    (made : clientEncrypt E client (hexText pair.x25519PublicKey.toList) messages = some prompt) :
    decryptMessages (X.inEnclave pair) prompt.clientX25519PubkeyHex prompt.messagesEncrypted prompt.messagesNonce =
      .ok messages := by
  simp only [clientEncrypt, hexText, String.toList_ofList, hexDecode_hexEncode, toKey_toList, Option.bind_eq_bind,
    Option.bind_some, Option.bind_eq_some_iff, Option.pure_def, Option.some.injEq] at made
  obtain ⟨ciphertext, encrypted, rfl⟩ := made
  have width : client.nonce.toList.length = 12 := Vector.length_toList
  have agreed : pair.ecdh (E.publicKey client.secret) = E.diffieHellman client.secret pair.x25519PublicKey :=
    correct.agree _ _
  rw [← agreed] at encrypted
  have opened := correct.opens _ _ _ _ width encrypted
  have onward {α β : Type} (value : α) (next : α → Except AppError β) : Except.ok value >>= next = next value := rfl
  simp only [decryptMessages, Externals.inEnclave, String.toList_ofList, hexDecode_hexEncode, toKey_toList,
    base64Decode_encode, Option.elim_some, onward, width, opened, reads messages]
  rfl

theorem clientEncrypt_some (pair : EnclaveKeyPair E) (client : Client) (messages : List ChatMessage) {ciphertext : List UInt8}
    (encrypted : E.encrypt (deriveAesKey C (E.diffieHellman client.secret pair.x25519PublicKey)) client.nonce.toList
      (Json.array (messages.map messageJson)).render = some ciphertext) :
    clientEncrypt E client (hexText pair.x25519PublicKey.toList) messages = some {
      clientX25519PubkeyHex := hexText (E.publicKey client.secret).toList
      messagesEncrypted := String.ofList (base64Encode ciphertext)
      messagesNonce := String.ofList (base64Encode client.nonce.toList) } := by
  simp only [clientEncrypt, hexText, String.toList_ofList, hexDecode_hexEncode, toKey_toList, Option.bind_eq_bind,
    Option.bind_some, encrypted, Option.pure_def]

theorem decryptMessagesIfEncrypted_plain {req : ChatCompletionRequest} (plain : req.plain = true) :
    decryptMessagesIfEncrypted X req = .ok req.messages := by
  simp only [ChatCompletionRequest.plain, Bool.and_eq_true, Option.isNone_iff_eq_none] at plain
  obtain ⟨⟨hex, encrypted⟩, nonce⟩ := plain
  rw [decryptMessagesIfEncrypted, hex, encrypted, nonce]

theorem decryptMessagesIfEncrypted_sealed (correct : E.Correct) (reads : X.ReadsMessages)
    {health : EnclaveHealthResponse} (published : health.x25519PubkeyHex = hexText pair.x25519PublicKey.toList)
    {client : Client} {req posted : ChatCompletionRequest} (made : sealRequest E health client req = some posted) :
    req.plain = true ∧ (∃ prompt, posted = req.carry prompt) ∧
      decryptMessagesIfEncrypted (X.inEnclave pair) posted = .ok req.messages := by
  unfold sealRequest at made
  split at made
  · rename_i plain
    obtain ⟨prompt, encrypted, rfl⟩ := Option.map_eq_some_iff.mp made
    rw [published] at encrypted
    exact ⟨plain, ⟨prompt, rfl⟩, decryptMessages_sealed correct reads encrypted⟩
  · cases made

theorem serveChat_carry (key : C.SigningKey) (pool : Bool) {req : ChatCompletionRequest} {prompt : Sealed}
    (opened : decryptMessagesIfEncrypted X (req.carry prompt) = decryptMessagesIfEncrypted X req) :
    serveChat X C key pool (req.carry prompt) = serveChat X C key pool req := by
  unfold serveChat chatCompletions
  rw [opened]
  rfl

/-- The step as it is when some of the calls are posted in encrypted mode. -/
def Label.sealed (E : Exchange C) (health : EnclaveHealthResponse)
    (clients : Nat → ChatCompletionRequest → Option Client) : Label → Label
  | .request k req => .request k (((clients k req).bind fun client => sealRequest E health client req).getD req)
  | label => label

theorem request_iff {w n : World C} {k : Nat} {req : ChatCompletionRequest} : Step X w (.request k req) n ↔
    w.tasks (.chat k) = .done () ∧ n = w.setTask (.chat k) (serveChat X C w.loop.enclaveKey w.loop.pgPool req) := by
  constructor
  · intro step
    cases step with
    | request free => exact ⟨free, rfl⟩
  · intro both
    obtain ⟨free, rfl⟩ := both
    exact .request free

theorem serveChat_sealed (correct : E.Correct) (reads : X.ReadsMessages) {health : EnclaveHealthResponse}
    (published : health.x25519PubkeyHex = hexText pair.x25519PublicKey.toList) (key : C.SigningKey) (pool : Bool)
    {client : Client} {req posted : ChatCompletionRequest} (made : sealRequest E health client req = some posted) :
    serveChat (X.inEnclave pair) C key pool posted = serveChat (X.inEnclave pair) C key pool req := by
  obtain ⟨plain, ⟨prompt, rfl⟩, opened⟩ := decryptMessagesIfEncrypted_sealed correct reads published made
  exact serveChat_carry key pool (opened.trans (decryptMessagesIfEncrypted_plain plain).symm)

theorem step_sealed (correct : E.Correct) (reads : X.ReadsMessages) {health : EnclaveHealthResponse}
    (published : health.x25519PubkeyHex = hexText pair.x25519PublicKey.toList)
    (clients : Nat → ChatCompletionRequest → Option Client) (w : World C) (label : Label) (n : World C) :
    Step (X.inEnclave pair) w label n ↔ Step (X.inEnclave pair) w (label.sealed E health clients) n := by
  cases label with
  | request k req =>
    cases made : (clients k req).bind fun client => sealRequest E health client req with
    | none => simp only [Label.sealed, made, Option.getD_none]
    | some posted =>
      obtain ⟨client, _, made'⟩ := Option.bind_eq_some_iff.mp made
      simp only [Label.sealed, made, Option.getD_some, request_iff,
        serveChat_sealed correct reads published w.loop.enclaveKey w.loop.pgPool made']
  | _ => rfl

/-- Encrypted mode changes nothing but who can read the prompt on its way in: a call sealed to the key that
    `/enclave_health` publishes is decrypted to the messages it was sealed from, and with any of the plaintext
    calls of a run sealed so, it is a run through the same states. -/
theorem sealed_calls_as_plain (X : Externals) (E : Exchange C) (correct : E.Correct) (reads : X.ReadsMessages)
    (key : C.SigningKey) (pgPool settlementTx : Bool) (archive : ReceiptArchive) (ttl : UInt64)
    (peerId : PublicKey → Option String) (onChain : Option RegisteredEnclave) (fingerprint : Option String)
    (startedAtMs nowMs : UInt64) (clients : Nat → ChatCompletionRequest → Option Client)
    (trace : List (World C × Label)) (w : World C) :
    let pair := EnclaveKeyPair.generate (E := E) key
    let health := enclaveHealth pair peerId onChain fingerprint startedAtMs nowMs
    let start := World.start (EventLoop.new pair.signingKey pgPool settlementTx) archive ttl
    (∀ client req posted, sealRequest E health client req = some posted →
        posted.messages = [] ∧ decryptMessagesIfEncrypted (X.inEnclave pair) posted = .ok req.messages) ∧
      (Runs (X.inEnclave pair) start trace w ↔
        Runs (X.inEnclave pair) start (trace.map fun taken => (taken.1, taken.2.sealed E health clients)) w) := by
  intro pair health start
  have published : health.x25519PubkeyHex = hexText pair.x25519PublicKey.toList := rfl
  refine ⟨fun client req posted made => ?_, Run.relabel fun m label n => ?_⟩
  · obtain ⟨_, ⟨prompt, rfl⟩, opened⟩ := decryptMessagesIfEncrypted_sealed correct reads published made
    exact ⟨rfl, opened⟩
  · exact step_sealed correct reads published clients m label n

theorem messages_injective :
    Function.Injective fun messages : List ChatMessage => (Json.array (messages.map messageJson)).render := by
  have single : Function.Injective messageJson := by
    intro a b same
    obtain ⟨role, content⟩ := a
    obtain ⟨role', content'⟩ := b
    simp only [messageJson, Json.object.injEq, List.cons.injEq, Prod.mk.injEq, Json.string.injEq, and_true,
      true_and] at same
    rw [same.1, same.2]
  intro a b same
  have arrays := Json.render_injective same
  rw [Json.array.injEq] at arrays
  exact List.map_injective_iff.mpr single arrays

noncomputable def Externals.serdeMessages : Externals :=
  { Externals.serde (fun _ => none) fun text => .ok ⟨text⟩ with
    messagesFromSlice := Function.partialInv fun messages => (Json.array (messages.map messageJson)).render }

theorem Externals.serdeMessages_reads : Externals.serdeMessages.ReadsMessages := by
  intro messages
  exact Function.partialInv_left messages_injective messages

theorem sample_call_sealed :
    let C := Primitives.marking []
    let E : Exchange C := Exchange.prefixing id
    let pair := EnclaveKeyPair.generate (E := E) (Vector.replicate 32 0)
    let X := Externals.serdeMessages.inEnclave pair
    let start := World.start (EventLoop.new pair.signingKey true true) (.inMemory fun _ => none) 60000
    ∃ posted : ChatCompletionRequest, posted.messages = [] ∧ posted.messagesEncrypted.isSome = true ∧
      decryptMessagesIfEncrypted X posted = .ok sampleChat.messages ∧
      Runs X start [(start, .request 0 posted)]
        (start.setTask (.chat 0) (serveChat X C pair.signingKey true sampleChat)) := by
  intro C E pair X start
  let client : Client := ⟨Vector.replicate 32 5, Vector.replicate 12 7⟩
  let health := enclaveHealth pair (fun _ => none) none none 0 0
  obtain ⟨prompt, encrypted⟩ : ∃ prompt, clientEncrypt E client health.x25519PubkeyHex sampleChat.messages = some prompt :=
    ⟨_, clientEncrypt_some pair client sampleChat.messages rfl⟩
  have plain : sampleChat.plain = true := rfl
  have made : sealRequest E health client sampleChat = some (sampleChat.carry prompt) := by
    simp only [sealRequest, plain, if_true, encrypted, Option.map_some]
  have posting : Label.sealed E health (fun _ _ => some client) (.request 0 sampleChat) =
      .request 0 (sampleChat.carry prompt) := by
    simp only [Label.sealed, Option.bind_some, made, Option.getD_some]
  have run : Runs X start [(start, .request 0 sampleChat)]
      (start.setTask (.chat 0) (serveChat X C pair.signingKey true sampleChat)) := .one (.request rfl)
  obtain ⟨opens, same⟩ := sealed_calls_as_plain Externals.serdeMessages E (Exchange.prefixing_correct _)
    Externals.serdeMessages_reads (Vector.replicate 32 0) true true (.inMemory fun _ => none) 60000 (fun _ => none) none
    none 0 0 (fun _ _ => some client) _ _
  obtain ⟨empty, opened⟩ := opens client sampleChat _ made
  refine ⟨sampleChat.carry prompt, empty, rfl, opened, ?_⟩
  rw [← posting]
  exact same.mp run

end Coordinator
