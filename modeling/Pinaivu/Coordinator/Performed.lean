import Pinaivu.Coordinator.System

namespace Coordinator

open Protocol Crypto Async

variable {C : Primitives} {X : Externals} {w w' : World C} {op : Call} {answer : Answer op}

/-- Calls that leave the world as it is, whatever or when answered so. -/
def Call.silent : (op : Call) → Answer op → Bool
  | .upsertPeer _ _ _ _, _ => false
  | .observeAddrs _ _, _ => false
  | .evictStale _, _ => false
  | .putReceipt _, .ok () => false
  | .upsertSessionCache _ _, .ok () => false
  | .insertPayment _, .ok () => false
  | .selectPending _, .ok _ => false
  | .markSubmitted _ _, .ok () => false
  | .markFailed _, .ok () => false
  | .trySendJob _, _ => false
  | .recvJob, _ => false
  | .pushRequest _, .ok () => false
  | .jobResult _ (.ok ()), _ => false
  | .sendBid _ _, true => false
  | .collectBids _, _ => false
  | .newOneshot _, _ => false
  | .sendCommand _, _ => false
  | .replyPublish _ _, _ => false
  | .awaitPublish _, _ => false
  | .replyInference _ _, _ => false
  | .awaitInference _, _ => false
  | .panic, _ => false
  | _, _ => true

/-- The answered call and what it did, one case for each kind of call that matters elsewhere. -/
inductive Performed (X : Externals) (w : World C) : (op : Call) → Answer op → World C → Prop where
  | silent {op : Call} {answer : Answer op} (quiet : op.silent answer = true) : Performed X w op answer w
  | upserted (peer : PeerId) (caps : NodeCapabilities) (addrs : List Multiaddr) (nowMs : UInt64) :
      Performed X w (.upsertPeer peer caps addrs nowMs) ()
        { w with registry := w.registry.upsert peer caps addrs nowMs }
  | observed (peer : PeerId) (addrs : List Multiaddr) :
      Performed X w (.observeAddrs peer addrs) () { w with registry := w.registry.observeAddrs peer addrs }
  | evicted (nowMs : UInt64) :
      Performed X w (.evictStale nowMs) () { w with registry := w.registry.evictStale nowMs }
  | put (receipt : RoutingReceipt) :
      Performed X w (.putReceipt receipt) (.ok ()) { w with archive := w.archive.put X receipt }
  | cache (peer : String) (session : SessionId) (sessionCache : List (String × SessionId × String)) :
      Performed X w (.upsertSessionCache peer session) (.ok ()) { w with sessionCache }
  | insert (row : PendingPayment) :
      Performed X w (.insertPayment row) (.ok ()) { w with payments := w.payments.insert row }
  | select (requestId : RequestId) :
      Performed X w (.selectPending requestId) (.ok (w.payments.pendingForRequest requestId)) w
  | submitted (id : Uuid) (txDigest : String) :
      Performed X w (.markSubmitted id txDigest) (.ok ())
        { w with payments := w.payments.markSubmitted id txDigest }
  | failed (id : Uuid) :
      Performed X w (.markFailed id) (.ok ()) { w with payments := w.payments.markFailed id }
  | queued (job : SettlementJob) (room : w.jobs.length < jobCapacity) :
      Performed X w (.trySendJob job) (.ok ()) { w with jobs := w.jobs ++ [job] }
  | full (job : SettlementJob) (e : String) (crowded : ¬ w.jobs.length < jobCapacity) :
      Performed X w (.trySendJob job) (.error e) w
  | taken (job : SettlementJob) (rest : List SettlementJob) (first : w.jobs = job :: rest) :
      Performed X w .recvJob job { w with jobs := rest }
  | pushed (job : SettlementJob) :
      Performed X w (.pushRequest job) (.ok ()) { w with storage := w.storage ++ [⟨job, false⟩] }
  | finished (job : SettlementJob) :
      Performed X w (.jobResult job (.ok ())) ()
        { w with
          storage := w.storage.map fun stored =>
            if stored.job = job then { stored with finished := true } else stored }
  | bid (tx : BidChannelId) (bid : InferenceBid) (received : (w.bids tx).received = true) :
      Performed X w (.sendBid tx bid) true
        { w with
          bids := Function.update w.bids tx { w.bids tx with queue := (w.bids tx).queue ++ [bid] } }
  | collected (rx : BidChannelId) :
      Performed X w (.collectBids rx) (w.bids rx).collected (w.closeBids rx)
  | oneshot (request : RequestId) :
      Performed X w (.newOneshot request) ⟨request, w.serial⟩ { w with serial := w.serial + 1 }
  | sent (command : MeshCommand) (alive : w.loopGone = false) :
      Performed X w (.sendCommand command) true { w with commands := w.commands ++ [command] }
  | unsent (command : MeshCommand) (gone : w.loopGone = true) :
      Performed X w (.sendCommand command) false w
  | dropped (tx : OneshotId) (rx : BidChannelId) (away : w.abandoned tx = true) :
      Performed X w (.replyPublish tx (.ok rx)) () (w.closeBids rx)
  | published (tx : OneshotId) (result : Except String BidChannelId) :
      Performed X w (.replyPublish tx result) ()
        { w with publishReplies := Function.update w.publishReplies tx (some result) }
  | outcome (tx : OneshotId) (result : Except String BidChannelId)
      (ready : w.publishReplies tx = some result ∨ w.loopGone = true ∧ result = .error "publish reply") :
      Performed X w (.awaitPublish tx) result w
  | replied (tx : OneshotId) (result : Except String InferenceReply) :
      Performed X w (.replyInference tx result) ()
        { w with inferenceReplies := Function.update w.inferenceReplies tx (some result) }
  | result (tx : OneshotId) (result : Except String InferenceReply)
      (ready : w.inferenceReplies tx = some result ∨
        w.loopGone = true ∧ w.inferenceReplies tx = none ∧ result = .error "dispatch-inference reply") :
      Performed X w (.awaitInference tx) result w

theorem performed (answered : w.perform X op answer = some w') : Performed X w op answer w' := by
  cases op with
  | upsertPeer peer caps addrs nowMs =>
    cases answered
    exact .upserted peer caps addrs nowMs
  | observeAddrs peer addrs =>
    cases answered
    exact .observed peer addrs
  | evictStale nowMs =>
    cases answered
    exact .evicted nowMs
  | putReceipt receipt =>
    cases answer with
    | error e =>
      simp only [World.perform] at answered
      split at answered <;> cases answered
      exact .silent rfl
    | ok => cases answered; exact .put receipt
  | upsertSessionCache peer session =>
    cases answer with
    | error e => cases answered; exact .silent rfl
    | ok =>
      cases answered
      unfold World.upsertSessionCache
      split <;> exact .cache peer session _
  | selectSessionCache session =>
    cases answer with
    | error e => cases answered; exact .silent rfl
    | ok rows =>
      simp only [World.perform] at answered
      split at answered <;> cases answered
      exact .silent rfl
  | insertPayment row =>
    cases answer with
    | error e => cases answered; exact .silent rfl
    | ok => cases answered; exact .insert row
  | selectPending requestId =>
    cases answer with
    | error e => cases answered; exact .silent rfl
    | ok rows =>
      simp only [World.perform] at answered
      split at answered
      · rename_i same
        cases answered
        subst same
        exact .select requestId
      · cases answered
  | markSubmitted id txDigest =>
    cases answer with
    | error e => cases answered; exact .silent rfl
    | ok => cases answered; exact .submitted id txDigest
  | markFailed id =>
    cases answer with
    | error e => cases answered; exact .silent rfl
    | ok => cases answered; exact .failed id
  | trySendJob job =>
    cases answer with
    | error e =>
      simp only [World.perform] at answered
      split at answered
      · cases answered
      · rename_i crowded
        cases answered
        exact .full job e crowded
    | ok =>
      simp only [World.perform] at answered
      split at answered
      · rename_i room
        cases answered
        exact .queued job room
      · cases answered
  | recvJob =>
    simp only [World.perform] at answered
    split at answered
    · rename_i first rest queue
      split at answered
      · rename_i same
        cases answered
        subst same
        exact .taken first rest queue
      · cases answered
    · cases answered
  | pushRequest job =>
    cases answer with
    | error e => cases answered; exact .silent rfl
    | ok => cases answered; exact .pushed job
  | jobResult job result =>
    cases result with
    | error e => cases answered; exact .silent rfl
    | ok => cases answered; exact .finished job
  | sendBid tx bid =>
    cases answer with
    | false =>
      simp only [World.perform] at answered
      split at answered <;> cases answered
      exact .silent rfl
    | true =>
      simp only [World.perform] at answered
      split at answered
      · rename_i room
        cases answered
        exact .bid tx bid room.1
      · cases answered
  | collectBids rx =>
    simp only [World.perform] at answered
    split at answered
    · rename_i same
      cases answered
      subst same
      exact .collected rx
    · cases answered
  | newOneshot request =>
    simp only [World.perform] at answered
    split at answered
    · rename_i same
      cases answered
      subst same
      exact .oneshot request
    · cases answered
  | sendCommand command =>
    cases answer with
    | false =>
      simp only [World.perform] at answered
      split at answered
      · rename_i gone
        cases answered
        exact .unsent command gone
      · cases answered
    | true =>
      simp only [World.perform] at answered
      split at answered
      · rename_i alive
        cases answered
        exact .sent command (by simpa using alive.1)
      · cases answered
  | replyPublish tx result =>
    cases result with
    | error e => cases answered; exact .published tx _
    | ok rx =>
      simp only [World.perform] at answered
      split at answered
      · rename_i away
        cases answered
        exact .dropped tx rx away
      · cases answered
        exact .published tx _
  | awaitPublish tx =>
    simp only [World.perform] at answered
    split at answered
    · rename_i ready
      cases answered
      exact .outcome tx answer (ready.imp_right fun gone => ⟨gone.1, gone.2.2⟩)
    · cases answered
  | replyInference tx result => cases answered; exact .replied tx result
  | awaitInference tx =>
    simp only [World.perform] at answered
    split at answered
    · rename_i ready
      cases answered
      exact .result tx answer ready
    · cases answered
  | panic => exact answer.elim
  | _ => cases answered; exact .silent rfl

end Coordinator
