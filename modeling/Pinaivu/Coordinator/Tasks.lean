import Pinaivu.Coordinator.Completion

namespace Coordinator

open Protocol Crypto Async

variable {C : Primitives} {X : Externals}

/-- Calls that pass nothing on to another task or to a store of receipts, payments or jobs. -/
def Call.plain : Call → Bool
  | .putReceipt _ => false
  | .insertPayment _ => false
  | .settle _ _ _ => false
  | .trySendJob _ => false
  | .pushRequest _ => false
  | .sendBid _ _ => false
  | .sendCommand _ => false
  | .replyPublish _ _ => false
  | _ => true

def Call.minor : Call → Bool
  | .newUuid => true
  | .sendResponse _ _ => true
  | .addAddress _ _ => true
  | .upsertPeer _ _ _ _ => true
  | .observeAddrs _ _ => true
  | .evictStale _ => true
  | .upsertSessionCache _ _ => true
  | .replyDial _ _ => true
  | .replyListenAddrs _ _ => true
  | _ => false

theorem Call.plain_of_minor {op : Call} (minor : op.minor) : op.plain := by
  cases op <;> first | rfl | cases minor

inductive Begins (X : Externals) (w : World C) : Label → TaskId → Task Unit → Prop where
  | serve (k : Nat) (req : ChatCompletionRequest) :
      Begins X w (.request k req) (.chat k) (serveChat X C w.loop.enclaveKey w.loop.pgPool req)
  | drop (k : Nat) : Begins X w (.cancel k) (.chat k) (.done ())
  | command (command : MeshCommand) (swarm : SwarmAnswers) :
      Begins X w (.command command swarm) .eventLoop (w.loop.handleCommand command swarm).2
  | event (event : Event) : Begins X w (.event event) .eventLoop (w.loop.handleEvent X event).2
  | forward : Begins X w .forward .forwarder forwardJob
  | execute (k : Nat) (stored : StoredJob) (known : stored ∈ w.storage) :
      Begins X w (.execute k stored.job) (.settlement k stored.job) (runSettlement X stored.job)

theorem step_stores {w w' : World C} {label : Label} (step : Step X w label w') :
    (w'.archive = w.archive ∧ w'.payments = w.payments ∧ w'.jobs = w.jobs ∧ w'.storage = w.storage) ∨
      ∃ id op answer next m, label = .call id op answer ∧ w.tasks id = .call op next ∧
        w.perform X op answer = some m ∧ w' = m.setTask id (next answer) := by
  cases step with
  | cancel k => exact .inl (dropChat_keeps w k).2.2
  | @call m id op next answer waiting answered =>
    exact .inr ⟨id, op, answer, next, m, rfl, waiting, answered, rfl⟩
  | _ => exact .inl ⟨rfl, rfl, rfl, rfl⟩

def Label.starts : Label → Option TaskId
  | .request k _ => some (.chat k)
  | .cancel k => some (.chat k)
  | .command _ _ => some .eventLoop
  | .event _ => some .eventLoop
  | .forward => some .forwarder
  | .execute k job => some (.settlement k job)
  | _ => none

def Label.isCall : Label → Bool
  | .call _ _ _ => true
  | _ => false

theorem Label.ne_call {label : Label} {id : TaskId} (other : label.isCall = false) :
    ∀ op answer, label ≠ .call id op answer := by
  intro op answer same
  rw [same] at other
  cases other

theorem setTask_starts {w m : World C} {label : Label} {started : TaskId} {task : Task Unit}
    (tasks : m.tasks = w.tasks) (starts : label.starts = some started) (begun : Begins X w label started task)
    (id : TaskId) :
    (label.starts ≠ some id ∧ (m.setTask started task).tasks id = w.tasks id) ∨
      (label.starts = some id ∧ Begins X w label id ((m.setTask started task).tasks id)) := by
  by_cases own : id = started
  · subst id
    simp only [World.setTask, Function.update_self]
    exact .inr ⟨starts, begun⟩
  · refine .inl ⟨?_, by simp only [World.setTask, Function.update_of_ne own, tasks]⟩
    rw [starts]
    exact fun same => own (Option.some.inj same).symm

theorem step_starts {w w' : World C} {label : Label} (step : Step X w label w') (id : TaskId) :
    ((∀ op answer, label ≠ .call id op answer) ∧
      ((label.starts ≠ some id ∧ w'.tasks id = w.tasks id) ∨
        (label.starts = some id ∧ Begins X w label id (w'.tasks id)))) ∨
      ∃ op next answer m, label = .call id op answer ∧ w.tasks id = .call op next ∧
        w.perform X op answer = some m ∧ w'.tasks id = next answer := by
  cases step with
  | @request k req free => exact .inl ⟨Label.ne_call rfl, setTask_starts rfl rfl (.serve k req) id⟩
  | cancel k =>
    apply Or.inl
    apply And.intro (Label.ne_call rfl)
    rw [dropChat_tasks]
    exact setTask_starts (w := w) (m := w) rfl rfl (.drop k) id
  | @call w'' other op next answer waiting answered =>
    have same := (perform_effect answered).tasks
    by_cases own : id = other
    · subst id
      exact .inr ⟨op, next, answer, w'', rfl, waiting, answered, by simp [World.setTask]⟩
    · have kept : (w''.setTask other (next answer)).tasks id = w.tasks id := by
        simp only [World.setTask, Function.update_of_ne own, same]
      refine .inl ⟨?_, .inl ⟨(Option.some_ne_none id).symm, kept⟩⟩
      intro op' answer' shape
      cases shape
      exact own rfl
  | receive collecting queued => exact .inl ⟨Label.ne_call rfl, .inl ⟨(Option.some_ne_none id).symm, rfl⟩⟩
  | @command command rest swarm idle queued fresh outFresh =>
    exact .inl ⟨Label.ne_call rfl, setTask_starts (by rfl) rfl (.command command swarm) id⟩
  | @event event idle => exact .inl ⟨Label.ne_call rfl, setTask_starts (by rfl) rfl (.event event) id⟩
  | external alive room => exact .inl ⟨Label.ne_call rfl, .inl ⟨(Option.some_ne_none id).symm, rfl⟩⟩
  | forward idle => exact .inl ⟨Label.ne_call rfl, setTask_starts rfl rfl .forward id⟩
  | @execute k stored free known => exact .inl ⟨Label.ne_call rfl, setTask_starts rfl rfl (.execute k stored known) id⟩

theorem step_task {w w' : World C} {label : Label} (step : Step X w label w') (id : TaskId) :
    w'.tasks id = w.tasks id ∨
      (∃ op next answer m, label = .call id op answer ∧ w.tasks id = .call op next ∧
        w.perform X op answer = some m ∧ w'.tasks id = next answer) ∨
      Begins X w label id (w'.tasks id) := by
  rcases step_starts step id with ⟨_, ⟨_, same⟩ | ⟨_, begun⟩⟩ | called
  · exact .inl same
  · exact .inr (.inr begun)
  · exact .inr (.inl called)

/-- Every task keeps to its own guarantee, as far as its answers satisfy `rely`. -/
def TasksSat (guarantee : TaskId → Call → Prop) (rely : (op : Call) → Answer op → Prop) (w : World C) :
    Prop :=
  ∀ id, (w.tasks id).Sat (guarantee id) rely fun _ => True

section Contracts

variable {guarantee : TaskId → Call → Prop} {rely : (op : Call) → Answer op → Prop}

theorem TasksSat.step {w w' : World C} {label : Label} (sat : TasksSat guarantee rely w)
    (step : Step X w label w')
    (begins : ∀ id task, Begins X w label id task → task.Sat (guarantee id) rely fun _ => True)
    (relied : ∀ id op answer m, label = .call id op answer → guarantee id op →
      w.perform X op answer = some m → rely op answer) :
    TasksSat guarantee rely w' := by
  intro id
  rcases step_task step id with same | ⟨op, next, answer, m, shape, waiting, answered, moved⟩ | begun
  · rw [same]
    exact sat id
  · rw [moved]
    obtain ⟨allowed, rest⟩ := (sat id).step waiting answer
    exact rest (relied id op answer m shape allowed answered)
  · exact begins id _ begun

theorem TasksSat.guaranteed {w w' : World C} {id : TaskId} {op : Call} {answer : Answer op}
    (sat : TasksSat guarantee rely w) (step : Step X w (.call id op answer) w') : guarantee id op := by
  cases step with
  | call waiting answered => exact ((sat id).step waiting answer).1

end Contracts

section Routines

variable {guarantee : Call → Prop} {rely : (op : Call) → Answer op → Prop}

theorem forwardJob_sat (plain : ∀ op, op.plain → guarantee op)
    (push : ∀ job, rely .recvJob job → guarantee (.pushRequest job)) :
    forwardJob.Sat guarantee rely fun _ => True :=
  ⟨plain _ rfl, fun job received => ⟨push job received, fun _ _ => trivial⟩⟩

theorem settleRows_sat {receipt : RoutingReceipt} (rows : List PendingPayment)
    (settle : ∀ row ∈ rows, guarantee (.settle receipt row.payeeSuiAddress row.amountNanox.toUInt64))
    (submitted : ∀ id digest, guarantee (.markSubmitted id digest)) (failed : ∀ id, guarantee (.markFailed id)) :
    (settleRows receipt rows).Sat guarantee rely fun _ => True := by
  induction rows with
  | nil => exact trivial
  | cons row rows ih =>
    have rest := ih fun other member => settle other (List.mem_cons_of_mem _ member)
    refine ⟨settle row (by simp), fun answer _ => ?_⟩
    cases answer with
    | ok digest =>
      refine ⟨submitted _ _, fun marked _ => ?_⟩
      cases marked with
      | ok => exact rest
      | error e => exact trivial
    | error e =>
      refine ⟨failed _, fun marked _ => ?_⟩
      cases marked with
      | ok => exact rest
      | error e => exact trivial

theorem runSettlement_calls (job : SettlementJob) (select : guarantee (.selectPending job.requestId))
    (settle : ∀ rows receipt, rely (.selectPending job.requestId) (.ok rows) →
      X.receiptFromStr job.receiptJson = .ok receipt → ∀ row ∈ rows,
      guarantee (.settle receipt row.payeeSuiAddress row.amountNanox.toUInt64))
    (submitted : ∀ id digest, guarantee (.markSubmitted id digest)) (failed : ∀ id, guarantee (.markFailed id))
    (result : ∀ result, guarantee (.jobResult job result)) :
    (runSettlement X job).Sat guarantee rely fun _ => True := by
  have handled : (handleSettlement X job).Sat guarantee rely fun _ => True := by
    refine ⟨select, fun answer selected => ?_⟩
    cases answer with
    | error e => exact trivial
    | ok rows =>
      change (if rows.isEmpty then _ else _ : Task (Except String Unit)).Sat guarantee rely _
      split
      · exact trivial
      · cases parsed : X.receiptFromStr job.receiptJson with
        | error e => exact trivial
        | ok receipt => exact settleRows_sat rows (settle rows receipt selected parsed) submitted failed
  apply Routine.Sat.seq handled
  intro outcome _
  exact ⟨result outcome, fun _ _ => trivial⟩

theorem runSettlement_sat (job : SettlementJob) (plain : ∀ op, op.plain → guarantee op)
    (settle : ∀ rows receipt, rely (.selectPending job.requestId) (.ok rows) →
      X.receiptFromStr job.receiptJson = .ok receipt → ∀ row ∈ rows,
      guarantee (.settle receipt row.payeeSuiAddress row.amountNanox.toUInt64)) :
    (runSettlement X job).Sat guarantee rely fun _ => True :=
  runSettlement_calls job (plain _ rfl) settle (fun _ _ => plain _ rfl) (fun _ => plain _ rfl) fun _ => plain _ rfl

def Event.outcome : Event → Option (Nat × Except String InferenceReply)
  | .inferenceResponse outId response => some (outId, .ok response)
  | .inferenceFailure outId error => some (outId, .error ("inference outbound failure: " ++ error))
  | _ => none

theorem replyInference_sat (self : EventLoop C) (outId : Nat) (result : Except String InferenceReply)
    (reply : ∀ tx, self.pendingInference outId = some tx → guarantee (.replyInference tx result)) :
    (self.replyInference outId result).2.Sat guarantee rely fun _ => True := by
  unfold EventLoop.replyInference
  split
  · rename_i tx pending
    exact ⟨reply tx pending, fun _ _ => trivial⟩
  · exact trivial

section Loop

variable (plain : ∀ op, op.minor → guarantee op)
include plain

theorem handleCommand_calls (self : EventLoop C) (command : MeshCommand) (swarm : SwarmAnswers)
    (reply : ∀ request tx, command = .publish request tx →
      guarantee (.replyPublish tx (self.publishRequest request swarm).2)) :
    (self.handleCommand command swarm).2.Sat guarantee rely fun _ => True := by
  cases command with
  | publish request tx => exact ⟨reply request tx rfl, fun _ _ => trivial⟩
  | setPayoutAddresses requestId addresses =>
    unfold EventLoop.handleCommand
    dsimp only
    split <;> exact trivial
  | dial addr tx => exact ⟨plain _ rfl, fun _ _ => trivial⟩
  | listenAddrs tx => exact ⟨plain _ rfl, fun _ _ => trivial⟩
  | dispatchInference peer inference tx => exact trivial

theorem addAddresses_sat (peer : PeerId) (addrs : List Multiaddr) :
    (EventLoop.addAddresses peer addrs).Sat guarantee rely fun _ => True := by
  induction addrs with
  | nil => exact trivial
  | cons addr addrs ih => exact ⟨plain _ rfl, fun _ _ => ih⟩

theorem handleGossipMessage_sat (self : EventLoop C) (message : GossipMessage) (nowMs : UInt64)
    (bids : ∀ bid tx, message.topic = Topics.bids → X.bidFromSlice message.data = some bid →
      self.bidSubscribers bid.requestId = some tx → guarantee (.sendBid tx bid)) :
    (self.handleGossipMessage X message nowMs).Sat guarantee rely fun _ => True := by
  unfold EventLoop.handleGossipMessage
  split
  · rename_i topic
    split
    · rename_i bid parsed
      split
      · rename_i tx subscribed
        exact ⟨bids bid tx topic parsed subscribed, fun _ _ => trivial⟩
      · exact trivial
    · exact trivial
  · split
    · split
      · split
        · exact ⟨plain _ rfl, fun _ _ => trivial⟩
        · exact trivial
      · exact trivial
    · exact trivial

theorem handleCompletionAck_sat (self : EventLoop C) (sender : PeerId) (ack : CompletionAck)
    (channel : Nat) (nowMs : UInt64)
    (put : ∀ receipt, Verified C ack → self.receiptFor sender ack nowMs = some receipt →
      guarantee (.putReceipt receipt) ∧ (rely (.putReceipt receipt) (.ok ()) →
        (∀ id, ∀ line ∈ computePayouts ack (self.addressesFor ack.requestId),
          guarantee (.insertPayment (line.row id receipt.requestId))) ∧
        (computePayouts ack (self.addressesFor ack.requestId) ≠ [] →
          guarantee (.trySendJob ⟨receipt.requestId, X.receiptToString receipt⟩))))
    (panic : Verified C ack → self.receiptFor sender ack nowMs = none → guarantee .panic) :
    (self.handleCompletionAck X sender ack channel nowMs).2.Sat guarantee rely fun _ => True := by
  by_cases verified : Verified C ack
  · cases signed : self.receiptFor sender ack nowMs with
    | none =>
      rw [handleCompletionAck_verified verified, ← EventLoop.receiptFor, signed]
      exact ⟨panic verified signed, fun answer _ => answer.elim⟩
    | some receipt =>
      rw [handleCompletionAck_stores X verified channel signed]
      obtain ⟨allowed, behind⟩ := put receipt verified signed
      refine ⟨allowed, fun answer stored => ?_⟩
      cases answer with
      | error e => exact ⟨plain _ rfl, fun _ _ => trivial⟩
      | ok =>
        obtain ⟨rows, job⟩ := behind stored
        exact afterPut_sat X self channel _ _ receipt (fun _ _ => plain _ rfl)
          (plain _ rfl) rows job (plain _ rfl)
  · obtain ⟨reason, shape⟩ := handleCompletionAck_unverified (X := X) verified self sender channel nowMs
    rw [shape]
    exact ⟨plain _ rfl, fun _ _ => trivial⟩

theorem handleEvent_calls (self : EventLoop C) (event : Event)
    (bids : ∀ source message nowMs bid tx, event = .gossip source message nowMs →
      message.topic = Topics.bids → X.bidFromSlice message.data = some bid →
      self.bidSubscribers bid.requestId = some tx → guarantee (.sendBid tx bid))
    (put : ∀ sender ack channel nowMs receipt, event = .completion sender ack channel nowMs →
      Verified C ack → self.receiptFor sender ack nowMs = some receipt →
      guarantee (.putReceipt receipt) ∧ (rely (.putReceipt receipt) (.ok ()) →
        (∀ id, ∀ line ∈ computePayouts ack (self.addressesFor ack.requestId),
          guarantee (.insertPayment (line.row id receipt.requestId))) ∧
        (computePayouts ack (self.addressesFor ack.requestId) ≠ [] →
          guarantee (.trySendJob ⟨receipt.requestId, X.receiptToString receipt⟩))))
    (reply : ∀ outId result tx, event.outcome = some (outId, result) → self.pendingInference outId = some tx →
      guarantee (.replyInference tx result))
    (panic : ∀ sender ack channel nowMs, event = .completion sender ack channel nowMs → Verified C ack →
      self.receiptFor sender ack nowMs = none → guarantee .panic) :
    (self.handleEvent X event).2.Sat guarantee rely fun _ => True := by
  cases event with
  | newListenAddr address => exact trivial
  | gossip source message nowMs =>
    exact handleGossipMessage_sat plain self message nowMs fun bid tx => bids source message nowMs bid tx rfl
  | completion sender ack channel nowMs =>
    exact handleCompletionAck_sat plain self sender ack channel nowMs
      (fun receipt => put sender ack channel nowMs receipt rfl) (panic sender ack channel nowMs rfl)
  | inferenceResponse outId response => exact replyInference_sat self outId _ fun tx => reply outId _ tx rfl
  | inferenceFailure outId error => exact replyInference_sat self outId _ fun tx => reply outId _ tx rfl
  | identify peer addrs => exact ⟨plain _ rfl, fun _ _ => addAddresses_sat plain peer addrs⟩
  | routingUpdated peer addresses => exact ⟨plain _ rfl, fun _ _ => trivial⟩
  | evictTick nowMs => exact ⟨plain _ rfl, fun _ _ => trivial⟩

end Loop

theorem handleCommand_sat (plain : ∀ op, op.plain → guarantee op) (self : EventLoop C) (command : MeshCommand)
    (swarm : SwarmAnswers)
    (reply : ∀ request tx, command = .publish request tx →
      guarantee (.replyPublish tx (self.publishRequest request swarm).2)) :
    (self.handleCommand command swarm).2.Sat guarantee rely fun _ => True :=
  handleCommand_calls (fun op minor => plain op (Call.plain_of_minor minor)) self command swarm reply

theorem handleEvent_sat (plain : ∀ op, op.plain → guarantee op) (self : EventLoop C) (event : Event)
    (bids : ∀ source message nowMs bid tx, event = .gossip source message nowMs →
      message.topic = Topics.bids → X.bidFromSlice message.data = some bid →
      self.bidSubscribers bid.requestId = some tx → guarantee (.sendBid tx bid))
    (put : ∀ sender ack channel nowMs receipt, event = .completion sender ack channel nowMs →
      Verified C ack → self.receiptFor sender ack nowMs = some receipt →
      guarantee (.putReceipt receipt) ∧ (rely (.putReceipt receipt) (.ok ()) →
        (∀ id, ∀ line ∈ computePayouts ack (self.addressesFor ack.requestId),
          guarantee (.insertPayment (line.row id receipt.requestId))) ∧
        (computePayouts ack (self.addressesFor ack.requestId) ≠ [] →
          guarantee (.trySendJob ⟨receipt.requestId, X.receiptToString receipt⟩)))) :
    (self.handleEvent X event).2.Sat guarantee rely fun _ => True :=
  handleEvent_calls (fun op minor => plain op (Call.plain_of_minor minor)) self event bids put
    (fun _ _ _ _ _ => plain _ rfl) fun _ _ _ _ _ _ _ => plain _ rfl

section Chat

theorem fetchWarmthMap_sat {sessionId : SessionId} (select : guarantee (.selectSessionCache sessionId)) (pool : Bool) :
    (fetchWarmthMap pool sessionId).Sat guarantee rely fun _ => True := by
  cases pool with
  | false => exact trivial
  | true =>
    refine ⟨select, fun rows _ => ?_⟩
    cases rows with
    | ok rows => exact trivial
    | error e => exact trivial

theorem sessionKeyOr_sat (draw : guarantee .randomSessionKey) (given : Option String) :
    (sessionKeyOr given).Sat guarantee rely fun _ => True := by
  cases given with
  | some key => exact trivial
  | none => exact ⟨draw, fun _ _ => trivial⟩

theorem sessionOf_sat (draw : guarantee .newUuid) (given : Option SessionId) :
    (sessionOf given).Sat guarantee rely fun _ => True := by
  cases given with
  | some id => exact trivial
  | none => exact ⟨draw, fun _ _ => trivial⟩

theorem dispatchInference_sat (peer : PeerId) {dispatch : InferenceDispatch}
    (make : guarantee (.newOneshot dispatch.dispatchToken.requestId))
    (send : ∀ tx, guarantee (.sendCommand (.dispatchInference peer dispatch tx)))
    (await : ∀ tx, guarantee (.awaitInference tx)) :
    (dispatchInference peer dispatch).Sat guarantee rely fun _ => True := by
  refine ⟨make, fun tx _ => ⟨send tx, fun sent _ => ?_⟩⟩
  cases sent with
  | false => exact trivial
  | true => exact ⟨await tx, fun _ _ => trivial⟩

variable (plain : ∀ op, op.plain → guarantee op)
include plain

theorem publishRequest_sat (request : InferenceRequest)
    (publish : ∀ tx, rely (.newOneshot request.requestId) tx →
      guarantee (.sendCommand (.publish request tx))) :
    (publishRequest request).Sat guarantee rely fun result => ∀ rx, result = .ok rx →
      ∃ tx, rely (.newOneshot request.requestId) tx ∧ rely (.awaitPublish tx) (.ok rx) := by
  refine ⟨plain _ rfl, fun tx made => ⟨publish tx made, fun sent _ => ?_⟩⟩
  cases sent with
  | false =>
    intro rx failed
    cases failed
  | true =>
    refine ⟨plain _ rfl, fun answer replied => ?_⟩
    intro rx same
    subst same
    exact ⟨tx, made, replied⟩

variable (dispatch : ∀ peer inference tx, guarantee (.sendCommand (.dispatchInference peer inference tx)))
include dispatch

theorem dispatchToWinner_sat (enclaveKey : C.SigningKey) (req : ChatCompletionRequest)
    (requestId : RequestId) (sessionId : SessionId) (message : String) (winner : InferenceBid) :
    (dispatchToWinner X C enclaveKey req requestId sessionId message winner).Sat guarantee rely
      fun _ => True := by
  unfold dispatchToWinner
  cases decodeHexPubkey req.clientPubkeyHex with
  | error e => exact trivial
  | ok clientPubkey =>
    apply Routine.Sat.perform (plain _ rfl)
    intro nowMs _
    apply Routine.Sat.seq (sessionKeyOr_sat (plain _ rfl) req.sessionKey)
    intro sessionKey _
    cases X.parsePeerId winner.nodePeerId.value with
    | error e => exact trivial
    | ok peer =>
      apply Routine.Sat.seq (dispatchInference_sat peer (plain _ rfl) (dispatch peer _) fun _ => plain _ rfl)
      intro reply _
      cases reply with
      | error e => exact trivial
      | ok reply =>
        dsimp only
        cases reply.error with
        | some err => exact trivial
        | none => exact trivial

variable (publish : ∀ request tx, rely (.newOneshot request.requestId) tx →
    guarantee (.sendCommand (.publish request tx)))
  (addresses : ∀ r tx rx bids, rely (.newOneshot r) tx → rely (.awaitPublish tx) (.ok rx) →
    rely (.collectBids rx) bids → guarantee (.sendCommand (.setPayoutAddresses r (payoutAddresses bids))))
include publish addresses

theorem runAuction_sat (enclaveKey : C.SigningKey) (pool : Bool) (req : ChatCompletionRequest)
    (request : InferenceRequest) (message : String) :
    (runAuction X C enclaveKey pool req request message).Sat guarantee rely fun _ => True := by
  apply Routine.Sat.seq (publishRequest_sat plain request (publish request))
  intro result published
  cases result with
  | error e => exact trivial
  | ok rx =>
    obtain ⟨tx, made, replied⟩ := published rx rfl
    apply Routine.Sat.perform (plain _ rfl)
    intro bids collected
    apply Routine.Sat.seq (fetchWarmthMap_sat (plain _ rfl) pool)
    intro warmth _
    cases pickWinnerWithWarmth bids warmth with
    | none => exact trivial
    | some winner =>
      refine ⟨addresses _ tx rx bids made replied collected, fun _ _ => ?_⟩
      exact dispatchToWinner_sat plain dispatch enclaveKey req _ _ message winner

theorem serveChat_sat (enclaveKey : C.SigningKey) (pool : Bool) (req : ChatCompletionRequest) :
    (serveChat X C enclaveKey pool req).Sat guarantee rely fun _ => True := by
  have completed : (chatCompletions X C enclaveKey pool req).Sat guarantee rely fun _ => True := by
    apply Routine.Sat.perform (plain _ rfl)
    intro requestId _
    apply Routine.Sat.seq (sessionOf_sat (plain _ rfl) req.sessionId)
    intro session _
    dsimp only
    cases decryptMessagesIfEncrypted X req >>= newUserMessage with
    | error e => exact trivial
    | ok message => exact runAuction_sat plain dispatch publish addresses enclaveKey pool req _ message
  apply Routine.Sat.seq completed
  intro result _
  exact ⟨plain _ rfl, fun _ _ => trivial⟩

end Chat

end Routines

/-- Which task makes which of the calls that pass something on. -/
def TaskId.owns : TaskId → Call → Bool
  | .eventLoop, .putReceipt _ => true
  | .eventLoop, .insertPayment _ => true
  | .eventLoop, .trySendJob _ => true
  | .eventLoop, .sendBid _ _ => true
  | .eventLoop, .replyPublish _ _ => true
  | .forwarder, .pushRequest _ => true
  | .chat _, .sendCommand _ => true
  | .settlement _ _, .settle _ _ _ => true
  | _, op => op.plain

theorem TaskId.owns_plain (id : TaskId) {op : Call} (plain : op.plain) : id.owns op := by
  cases id <;> cases op <;> first | rfl | exact plain

theorem begins_owned {w : World C} {label : Label} {id : TaskId} {task : Task Unit}
    (begun : Begins X w label id task) :
    task.Sat (fun op => id.owns op) (fun _ _ => True) fun _ => True := by
  cases begun with
  | serve k req =>
    exact serveChat_sat (fun _ => TaskId.owns_plain _) (fun _ _ _ => rfl) (fun _ _ _ => rfl)
      (fun _ _ _ _ _ _ _ => rfl) _ _ req
  | drop k => exact trivial
  | command command swarm =>
    exact handleCommand_sat (fun _ => TaskId.owns_plain _) w.loop command swarm fun _ _ _ => rfl
  | event event =>
    exact handleEvent_sat (fun _ => TaskId.owns_plain _) w.loop event (fun _ _ _ _ _ _ _ _ _ => rfl)
      fun _ _ _ _ _ _ _ _ => ⟨rfl, fun _ => ⟨fun _ _ _ => rfl, fun _ => rfl⟩⟩
  | forward => exact forwardJob_sat (fun _ => TaskId.owns_plain _) fun _ _ => rfl
  | execute k stored known =>
    exact runSettlement_sat stored.job (fun _ => TaskId.owns_plain _) fun _ _ _ _ _ _ => rfl

theorem call_owned {loop : EventLoop C} {archive : ReceiptArchive} {ttl : UInt64} {w m : World C}
    {trace : List (World C × Label)} (run : Runs X (World.start loop archive ttl) trace w) {id : TaskId}
    {op : Call} {answer : Answer op} (member : (m, .call id op answer) ∈ trace) : id.owns op := by
  have sat : TasksSat (fun id op => id.owns op) (fun _ _ => True) m := by
    refine run.invariant_at (fun _ => trivial) ?_ member
    intro x label y _ step kept
    exact kept.step step (fun _ _ begun => begins_owned begun) fun _ _ _ _ _ _ _ => trivial
  obtain ⟨n, step⟩ := run.step_of_mem member
  exact sat.guaranteed step

end Coordinator
