import Pinaivu.Async.Run
import Pinaivu.Coordinator.EventLoop
import Pinaivu.Coordinator.Inference
import Pinaivu.Coordinator.Receipts
import Pinaivu.Coordinator.Settlement

namespace Coordinator

open Protocol Crypto Async

def commandCapacity : Nat := 64
def jobCapacity : Nat := 64

inductive TaskId where
  | eventLoop
  | forwarder
  | chat (k : Nat)
  | settlement (k : Nat) (job : SettlementJob)
  deriving DecidableEq

/-- A bid channel: what is queued, what `collect_bids` has taken out, whether a receiver is left. -/
structure BidChannel where
  queue : List InferenceBid
  collected : List InferenceBid
  received : Bool

structure StoredJob where
  job : SettlementJob
  finished : Bool

structure World (C : Primitives) where
  loop : EventLoop C
  tasks : TaskId → Task Unit
  commands : List MeshCommand
  bids : BidChannelId → BidChannel
  publishReplies : OneshotId → Option (Except String BidChannelId)
  inferenceReplies : OneshotId → Option (Except String InferenceReply)
  abandoned : OneshotId → Bool
  serial : Nat
  archive : ReceiptArchive
  payments : Payments
  sessionCache : List (String × SessionId × String)
  jobs : List SettlementJob
  storage : List StoredJob
  registry : PeerRegistry

namespace World

variable {C : Primitives}

def start (loop : EventLoop C) (archive : ReceiptArchive) (ttl : UInt64) : World C where
  loop := loop
  tasks _ := .done ()
  commands := []
  bids _ := ⟨[], [], true⟩
  publishReplies _ := none
  inferenceReplies _ := none
  abandoned _ := false
  serial := 0
  archive := archive
  payments := []
  sessionCache := []
  jobs := []
  storage := []
  registry := ⟨[], ttl⟩

def setTask (w : World C) (id : TaskId) (task : Task Unit) : World C :=
  { w with tasks := Function.update w.tasks id task }

@[simp] theorem setTask_same (w : World C) (id : TaskId) (task : Task Unit) :
    (w.setTask id task).tasks id = task := Function.update_self _ _ _

theorem setTask_other {w : World C} {id other : TaskId} (different : other ≠ id) (task : Task Unit) :
    (w.setTask id task).tasks other = w.tasks other := Function.update_of_ne different _ _

@[simp] theorem setTask_setTask (w : World C) (id : TaskId) (first second : Task Unit) :
    (w.setTask id first).setTask id second = w.setTask id second := by
  simp only [setTask, Function.update_idem]

def closeBids (w : World C) (rx : BidChannelId) : World C :=
  { w with bids := Function.update w.bids rx { w.bids rx with received := false } }

/-- A panic has ended the event loop, and with it every channel end it held. -/
def loopGone (w : World C) : Bool :=
  match w.tasks .eventLoop with
  | .call .panic _ => true
  | _ => false

def upsertSessionCache (w : World C) (peer : String) (session : SessionId) : World C :=
  if w.sessionCache.any fun row => row.1 = peer ∧ row.2.1 = session then
    { w with
      sessionCache := w.sessionCache.map fun row =>
        if row.1 = peer ∧ row.2.1 = session then (peer, session, "gpu") else row }
  else { w with sessionCache := w.sessionCache ++ [(peer, session, "gpu")] }

def sessionRows (w : World C) (session : SessionId) : List (String × String) :=
  (w.sessionCache.filter (·.2.1 = session)).map fun row => (row.1, row.2.2)

/-- The effect of a call for a given answer; `none` where it cannot be answered so, or not yet.
    A database statement that fails does nothing. -/
def perform (X : Externals) (w : World C) : (op : Call) → Answer op → Option (World C)
  | .newUuid, _ => some w
  | .now, _ => some w
  | .randomSessionKey, _ => some w
  | .sendResponse _ _, _ => some w
  | .addAddress _ _, _ => some w
  | .upsertPeer peer caps addrs nowMs, _ =>
    some { w with registry := w.registry.upsert peer caps addrs nowMs }
  | .observeAddrs peer addrs, _ => some { w with registry := w.registry.observeAddrs peer addrs }
  | .evictStale nowMs, _ => some { w with registry := w.registry.evictStale nowMs }
  | .putReceipt receipt, .ok () => some { w with archive := w.archive.put X receipt }
  | .putReceipt _, .error _ => if w.archive.mayFail then some w else none
  | .upsertSessionCache peer session, .ok () => some (w.upsertSessionCache peer session)
  | .upsertSessionCache _ _, .error _ => some w
  | .selectSessionCache session, .ok rows => if rows = w.sessionRows session then some w else none
  | .selectSessionCache _, .error _ => some w
  | .insertPayment row, .ok () => some { w with payments := w.payments.insert row }
  | .insertPayment _, .error _ => some w
  | .selectPending requestId, .ok rows =>
    if rows = w.payments.pendingForRequest requestId then some w else none
  | .selectPending _, .error _ => some w
  | .markSubmitted id txDigest, .ok () =>
    some { w with payments := w.payments.markSubmitted id txDigest }
  | .markSubmitted _ _, .error _ => some w
  | .markFailed id, .ok () => some { w with payments := w.payments.markFailed id }
  | .markFailed _, .error _ => some w
  | .settle _ _ _, _ => some w
  | .trySendJob job, .ok () =>
    if w.jobs.length < jobCapacity then some { w with jobs := w.jobs ++ [job] } else none
  | .trySendJob _, .error _ => if w.jobs.length < jobCapacity then none else some w
  | .recvJob, job =>
    match w.jobs with
    | first :: rest => if first = job then some { w with jobs := rest } else none
    | [] => none
  | .pushRequest job, .ok () => some { w with storage := w.storage ++ [⟨job, false⟩] }
  | .pushRequest _, .error _ => some w
  | .jobResult job (.ok ()), _ =>
    some { w with
      storage := w.storage.map fun stored =>
        if stored.job = job then { stored with finished := true } else stored }
  | .jobResult _ (.error _), _ => some w
  | .sendBid tx bid, true =>
    if (w.bids tx).received ∧ (w.bids tx).queue.length < bidChannelCapacity then
      some { w with
        bids := Function.update w.bids tx { w.bids tx with queue := (w.bids tx).queue ++ [bid] } }
    else none
  | .sendBid tx _, false => if (w.bids tx).received then none else some w
  | .collectBids rx, bids => if bids = (w.bids rx).collected then some (w.closeBids rx) else none
  | .newOneshot request, id =>
    if id = ⟨request, w.serial⟩ then some { w with serial := w.serial + 1 } else none
  | .sendCommand command, true =>
    if !w.loopGone ∧ w.commands.length < commandCapacity then
      some { w with commands := w.commands ++ [command] }
    else none
  | .sendCommand _, false => if w.loopGone then some w else none
  | .replyPublish tx (.ok rx), _ =>
    if w.abandoned tx then some (w.closeBids rx)
    else some { w with publishReplies := Function.update w.publishReplies tx (some (.ok rx)) }
  | .replyPublish tx (.error e), _ =>
    some { w with publishReplies := Function.update w.publishReplies tx (some (.error e)) }
  | .awaitPublish rx, result =>
    if w.publishReplies rx = some result ∨
        (w.loopGone ∧ w.publishReplies rx = none ∧ result = .error "publish reply") then some w
    else none
  | .replyInference tx result, _ =>
    some { w with inferenceReplies := Function.update w.inferenceReplies tx (some result) }
  | .awaitInference rx, result =>
    if w.inferenceReplies rx = some result ∨
        (w.loopGone ∧ w.inferenceReplies rx = none ∧ result = .error "dispatch-inference reply") then
      some w
    else none
  | .replyDial _ _, _ => some w
  | .replyListenAddrs _ _, _ => some w
  | .httpResponse _, _ => some w
  | .panic, _ => none

/-- What a dropped `chat_completions` future still held. -/
def dropChat (w : World C) (k : Nat) : World C :=
  let held :=
    match w.tasks (.chat k) with
    | .call (.collectBids rx) _ => w.closeBids rx
    | .call (.awaitPublish rx) _ =>
      match w.publishReplies rx with
      | some (.ok bids) => w.closeBids bids
      | _ => { w with abandoned := Function.update w.abandoned rx true }
    | _ => w
  held.setTask (.chat k) (.done ())

def receiveBid (w : World C) (rx : BidChannelId) (bid : InferenceBid) (rest : List InferenceBid) :
    World C :=
  { w with
    bids := Function.update w.bids rx
      { w.bids rx with queue := rest, collected := (w.bids rx).collected ++ [bid] } }

end World

inductive Label where
  | request (k : Nat) (req : ChatCompletionRequest)
  | cancel (k : Nat)
  | call (id : TaskId) (op : Call) (answer : Answer op)
  | receive (k : Nat) (rx : BidChannelId) (bid : InferenceBid)
  | command (command : MeshCommand) (swarm : SwarmAnswers)
  | event (event : Event)
  | external (command : MeshCommand)
  | forward
  | execute (k : Nat) (job : SettlementJob)

/-- One step of the coordinator: of one of its tasks, or of the outside world against it. The
    event loop takes the next command or event when it is back at its `select!`; apalis may start
    any stored job at any time and again; a client may go away; other holders of the mesh handle may
    send commands of their own. -/
inductive Step {C : Primitives} (X : Externals) : World C → Label → World C → Prop where
  | request {w : World C} {k : Nat} {req : ChatCompletionRequest}
      (free : w.tasks (.chat k) = .done ()) :
      Step X w (.request k req)
        (w.setTask (.chat k) (serveChat X C w.loop.enclaveKey w.loop.pgPool req))
  | cancel {w : World C} (k : Nat) : Step X w (.cancel k) (w.dropChat k)
  | call {w w' : World C} {id : TaskId} {op : Call} {next : Answer op → Task Unit} {answer : Answer op}
      (waiting : w.tasks id = .call op next) (answered : w.perform X op answer = some w') :
      Step X w (.call id op answer) (w'.setTask id (next answer))
  | receive {w : World C} {k : Nat} {rx : BidChannelId} {next : List InferenceBid → Task Unit}
      {bid : InferenceBid} {rest : List InferenceBid}
      (collecting : w.tasks (.chat k) = .call (.collectBids rx) next)
      (queued : (w.bids rx).queue = bid :: rest) :
      Step X w (.receive k rx bid) (w.receiveBid rx bid rest)
  | command {w : World C} {command : MeshCommand} {rest : List MeshCommand} {swarm : SwarmAnswers}
      (idle : w.tasks .eventLoop = .done ()) (queued : w.commands = command :: rest)
      (fresh : swarm.bidChannel = w.serial) (outFresh : swarm.outId = w.serial) :
      Step X w (.command command swarm)
        ({ w with
            loop := (w.loop.handleCommand command swarm).1
            commands := rest
            serial := w.serial + 1 }.setTask .eventLoop (w.loop.handleCommand command swarm).2)
  | event {w : World C} {event : Event} (idle : w.tasks .eventLoop = .done ()) :
      Step X w (.event event)
        ({ w with loop := (w.loop.handleEvent X event).1 }.setTask .eventLoop
          (w.loop.handleEvent X event).2)
  | external {w : World C} {command : MeshCommand} (alive : w.loopGone = false)
      (room : w.commands.length < commandCapacity) :
      Step X w (.external command) { w with commands := w.commands ++ [command] }
  | forward {w : World C} (idle : w.tasks .forwarder = .done ()) :
      Step X w .forward (w.setTask .forwarder forwardJob)
  | execute {w : World C} {k : Nat} {stored : StoredJob}
      (free : w.tasks (.settlement k stored.job) = .done ()) (known : stored ∈ w.storage) :
      Step X w (.execute k stored.job)
        (w.setTask (.settlement k stored.job) (runSettlement X stored.job))

abbrev Runs {C : Primitives} (X : Externals) (start : World C) (trace : List (World C × Label))
    (w : World C) : Prop := Async.Run (Step X) start trace w

end Coordinator
