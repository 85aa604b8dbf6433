import Pinaivu.Coordinator.Externals
import Pinaivu.Coordinator.Payments

namespace Coordinator

open Protocol Crypto Async

def bidChannelCapacity : Nat := 64

structure InFlightMeta where
  clientId : String
  bidSetHash : Digest
  payoutAddresses : PayoutAddresses
  sessionId : SessionId

structure EventLoop (C : Primitives) where
  enclaveKey : C.SigningKey
  pgPool : Bool
  settlementTx : Bool
  bidSubscribers : RequestId → Option BidChannelId
  inFlight : RequestId → Option InFlightMeta
  pendingInference : Nat → Option OneshotId
  listenAddrs : List Multiaddr

/-- What `tokio::select!` wakes up for, commands apart. Clock readings come with the event. -/
inductive Event where
  | newListenAddr (address : Multiaddr)
  | gossip (propagationSource : PeerId) (message : GossipMessage) (nowMs : UInt64)
  | completion (sender : PeerId) (ack : CompletionAck) (channel : Nat) (nowMs : UInt64)
  | inferenceResponse (outId : Nat) (response : InferenceReply)
  | inferenceFailure (outId : Nat) (error : String)
  | identify (peer : PeerId) (listenAddrs : List Multiaddr)
  | routingUpdated (peer : PeerId) (addresses : List Multiaddr)
  | evictTick (nowMs : UInt64)

/-- What the swarm answers on the spot while a command is handled. -/
structure SwarmAnswers where
  published : Except String Unit
  dialed : Except String Unit
  outId : Nat
  bidChannel : Nat

namespace EventLoop

variable {C : Primitives}

def new (enclaveKey : C.SigningKey) (pgPool settlementTx : Bool) : EventLoop C where
  enclaveKey := enclaveKey
  pgPool := pgPool
  settlementTx := settlementTx
  bidSubscribers _ := none
  inFlight _ := none
  pendingInference _ := none
  listenAddrs := []

def publishRequest (self : EventLoop C) (request : InferenceRequest) (swarm : SwarmAnswers) :
    EventLoop C × Except String BidChannelId :=
  match swarm.published with
  | .error e => (self, .error ("gossipsub publish: " ++ e))
  | .ok () =>
    let flight := {
      clientId := ""
      bidSetHash := Vector.replicate 32 0
      payoutAddresses := fun _ => none
      sessionId := request.sessionId }
    let channel := ⟨request.requestId, swarm.bidChannel⟩
    ({ self with
        inFlight := Function.update self.inFlight request.requestId (some flight)
        bidSubscribers := Function.update self.bidSubscribers request.requestId (some channel) },
      .ok channel)

def handleCommand (self : EventLoop C) (command : MeshCommand) (swarm : SwarmAnswers) :
    EventLoop C × Task Unit :=
  match command with
  | .publish request replyTx =>
    let (self, result) := self.publishRequest request swarm
    (self, call (.replyPublish replyTx result))
  | .setPayoutAddresses requestId addresses =>
    match self.inFlight requestId with
    | some flight =>
      ({ self with
          inFlight := Function.update self.inFlight requestId
            (some { flight with payoutAddresses := addresses }) },
        .done ())
    | none => (self, .done ())
  | .dial _ replyTx => (self, call (.replyDial replyTx (swarm.dialed.mapError ("dial: " ++ ·))))
  | .listenAddrs replyTx => (self, call (.replyListenAddrs replyTx self.listenAddrs))
  | .dispatchInference _ _ replyTx =>
    ({ self with
        pendingInference := Function.update self.pendingInference swarm.outId (some replyTx) },
      .done ())

def handleGossipMessage (X : Externals) (self : EventLoop C) (message : GossipMessage)
    (nowMs : UInt64) : Task Unit :=
  if message.topic = Topics.bids then
    match X.bidFromSlice message.data with
    | some bid =>
      match self.bidSubscribers bid.requestId with
      | some tx => do
        let _ ← call (.sendBid tx bid)
      | none => return ()
    | none => return ()
  else if message.topic = Topics.announce then
    match X.capabilitiesFromSlice message.data with
    | some caps =>
      match message.source with
      | some author => call (.upsertPeer author caps [] nowMs)
      | none => return ()
    | none => return ()
  else return ()

/-- The upsert of one `node_session_cache` row for each peer; a failure is only logged. -/
def markWarm (session : SessionId) : List String → Task Unit
  | [] => return ()
  | peer :: peers => do
    let _ ← call (.upsertSessionCache peer session)
    markWarm session peers

def unsignedReceipt (self : EventLoop C) (sender : PeerId) (ack : CompletionAck) (nowMs : UInt64) :
    RoutingReceipt :=
  let flight := self.inFlight ack.requestId
  let payoutAddresses := (flight.map (·.payoutAddresses)).getD fun _ => none
  { requestId := ack.requestId
    clientId := (flight.map (·.clientId)).getD ""
    primaryPeerId := (ack.proofs.head?.map (·.nodePeerId)).getD ⟨sender.text⟩
    helperPeerIds := (ack.proofs.drop 1).map (·.nodePeerId)
    bidSetHash := (flight.map (·.bidSetHash)).getD (Vector.replicate 32 0)
    proofIds := ack.proofIds C
    aggregatedOutputHash := ack.aggregatedOutputHash
    payouts := (computePayouts ack payoutAddresses).map fun l => ⟨l.suiAddress, l.amountNanox⟩
    timestampMs := nowMs
    coordinatorPubkey := Vector.replicate 32 0
    signature := [] }

def warmNodes (self : EventLoop C) (session : Option SessionId) (receipt : RoutingReceipt) : Task Unit :=
  match self.pgPool, session with
  | true, some sid => markWarm sid (receipt.primaryPeerId.value :: receipt.helperPeerIds.map (·.value))
  | _, _ => .done ()

def enqueueSettlement (X : Externals) (self : EventLoop C) (receipt : RoutingReceipt) : Task Unit :=
  if self.settlementTx then do
    let _ ← call (.trySendJob ⟨receipt.requestId, X.receiptToString receipt⟩)
  else .done ()

def queuePayments (X : Externals) (self : EventLoop C) (receipt : RoutingReceipt)
    (payoutLines : List PayoutLine) : Task Unit :=
  if self.pgPool && !payoutLines.isEmpty then do
    match ← insertPending receipt.requestId payoutLines with
    | .error _ => return ()
    | .ok () => self.enqueueSettlement X receipt
  else .done ()

def afterPut (X : Externals) (self : EventLoop C) (channel : Nat) (session : Option SessionId)
    (payoutLines : List PayoutLine) (receipt : RoutingReceipt) : Except String Unit → Task Unit
  | .error _ => call (.sendResponse channel (.rejected "storage error"))
  | .ok () => do
    self.warmNodes session receipt
    self.queuePayments X receipt payoutLines
    call (.sendResponse channel (.ok receipt))

/-- The part of `handle_completion_ack` from the signed receipt on; encoding it may have panicked. -/
def storeReceipt (X : Externals) (self : EventLoop C) (channel : Nat) (session : Option SessionId)
    (payoutLines : List PayoutLine) : Option RoutingReceipt → Task Unit
  | none => do nomatch ← call .panic
  | some receipt => do
    let stored ← call (.putReceipt receipt)
    self.afterPut X channel session payoutLines receipt stored

/-- The entry leaves `in_flight` before anything fallible runs. -/
def handleCompletionAck (X : Externals) (self : EventLoop C) (sender : PeerId) (ack : CompletionAck)
    (channel : Nat) (nowMs : UInt64) : EventLoop C × Task Unit :=
  match ack.verifyPrimary C with
  | .error e =>
    (self, call (.sendResponse channel (.rejected ("primary signature invalid: " ++ e.message))))
  | .ok () =>
    match ack.verifyAllProofs C with
    | .error e => (self, call (.sendResponse channel (.rejected ("proof invalid: " ++ e.message))))
    | .ok () =>
      let flight := self.inFlight ack.requestId
      let payoutAddresses := (flight.map (·.payoutAddresses)).getD fun _ => none
      ({ self with inFlight := Function.update self.inFlight ack.requestId none },
        storeReceipt X self channel (flight.map (·.sessionId)) (computePayouts ack payoutAddresses)
          ((self.unsignedReceipt sender ack nowMs).sign C self.enclaveKey))

def addAddresses (peer : PeerId) : List Multiaddr → Task Unit
  | [] => return ()
  | addr :: addrs => do
    call (.addAddress peer addr)
    addAddresses peer addrs

def replyInference (self : EventLoop C) (outId : Nat) (result : Except String InferenceReply) :
    EventLoop C × Task Unit :=
  match self.pendingInference outId with
  | some replyTx =>
    ({ self with pendingInference := Function.update self.pendingInference outId none },
      call (.replyInference replyTx result))
  | none => (self, .done ())

def handleEvent (X : Externals) (self : EventLoop C) : Event → EventLoop C × Task Unit
  | .newListenAddr address => ({ self with listenAddrs := self.listenAddrs ++ [address] }, .done ())
  | .gossip _ message nowMs => (self, self.handleGossipMessage X message nowMs)
  | .completion sender ack channel nowMs => self.handleCompletionAck X sender ack channel nowMs
  | .inferenceResponse outId response => self.replyInference outId (.ok response)
  | .inferenceFailure outId error =>
    self.replyInference outId (.error ("inference outbound failure: " ++ error))
  | .identify peer addrs => (self, do
      call (.observeAddrs peer addrs)
      addAddresses peer addrs)
  | .routingUpdated peer addresses => (self, call (.observeAddrs peer addresses))
  | .evictTick nowMs => (self, call (.evictStale nowMs))

end EventLoop

end Coordinator
