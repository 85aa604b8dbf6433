import Pinaivu.Coordinator.Tracking

namespace Coordinator

open Protocol Crypto Async

variable {C : Primitives} {X : Externals}

/-- How far a `chat_completions` call has come. From `opened` on it carries its request id and the
    channel of its publish command. -/
inductive ChatPhase where
  | start
  | named (r : RequestId)
  | opened (r : RequestId) (tx : OneshotId)
  | asked (r : RequestId) (tx : OneshotId)
  | joined (r : RequestId) (tx : OneshotId) (rx : BidChannelId)
  | collected (r : RequestId) (tx : OneshotId) (bids : List InferenceBid)
  | addressed (r : RequestId) (tx : OneshotId) (bids : List InferenceBid)
  | readied (r : RequestId) (tx : OneshotId) (bids : List InferenceBid) (out : OneshotId)
  | dispatched (r : RequestId) (tx : OneshotId) (bids : List InferenceBid) (out : OneshotId)
  | ended

namespace ChatPhase

inductive Allowed : ChatPhase → Call → Prop where
  | name : Allowed .start .newUuid
  | session {r : RequestId} : Allowed (.named r) .newUuid
  | open_reply {r : RequestId} : Allowed (.named r) (.newOneshot r)
  | publish {r : RequestId} {tx : OneshotId} {request : InferenceRequest} (own : request.requestId = r) :
      Allowed (.opened r tx) (.sendCommand (.publish request tx))
  | await {r : RequestId} {tx : OneshotId} : Allowed (.asked r tx) (.awaitPublish tx)
  | collect {r : RequestId} {tx : OneshotId} {rx : BidChannelId} : Allowed (.joined r tx rx) (.collectBids rx)
  | warmth {r : RequestId} {tx : OneshotId} {bids : List InferenceBid} {session : SessionId} :
      Allowed (.collected r tx bids) (.selectSessionCache session)
  | address {r : RequestId} {tx : OneshotId} {bids : List InferenceBid} :
      Allowed (.collected r tx bids) (.sendCommand (.setPayoutAddresses r (payoutAddresses bids)))
  | clock {r : RequestId} {tx : OneshotId} {bids : List InferenceBid} : Allowed (.addressed r tx bids) .now
  | key {r : RequestId} {tx : OneshotId} {bids : List InferenceBid} :
      Allowed (.addressed r tx bids) .randomSessionKey
  | open_result {r : RequestId} {tx : OneshotId} {bids : List InferenceBid} :
      Allowed (.addressed r tx bids) (.newOneshot r)
  | dispatch {r : RequestId} {tx out : OneshotId} {bids : List InferenceBid} {peer : PeerId}
      {dispatch : InferenceDispatch} (own : dispatch.dispatchToken.requestId = r) :
      Allowed (.readied r tx bids out) (.sendCommand (.dispatchInference peer dispatch out))
  | result {r : RequestId} {tx out : OneshotId} {bids : List InferenceBid} :
      Allowed (.dispatched r tx bids out) (.awaitInference out)
  | respond {phase : ChatPhase} {result : Except AppError ChatCompletionResult} :
      Allowed phase (.httpResponse result)

def advance : ChatPhase → (op : Call) → Answer op → ChatPhase
  | .start, .newUuid, r => .named r
  | .named r, .newUuid, _ => .named r
  | .named r, .newOneshot _, tx => .opened r tx
  | .opened r tx, .sendCommand _, true => .asked r tx
  | .asked r tx, .awaitPublish _, .ok rx => .joined r tx rx
  | .joined r tx _, .collectBids _, bids => .collected r tx bids
  | .collected r tx bids, .selectSessionCache _, _ => .collected r tx bids
  | .collected r tx bids, .sendCommand _, _ => .addressed r tx bids
  | .addressed r tx bids, .now, _ => .addressed r tx bids
  | .addressed r tx bids, .randomSessionKey, _ => .addressed r tx bids
  | .addressed r tx bids, .newOneshot _, out => .readied r tx bids out
  | .readied r tx bids out, .sendCommand _, true => .dispatched r tx bids out
  | _, _, _ => .ended

def typestate : Typestate Call Answer ChatPhase := ⟨Allowed, advance⟩

end ChatPhase

def chatTracking (C : Primitives) : Tracking C ChatPhase where
  typestate := ChatPhase.typestate
  ends phase := phase = .ended
  fresh _ label :=
    match label with
    | .request _ _ => .start
    | _ => .ended

def chatPhase (k : Nat) (trace : List (World C × Label)) : ChatPhase :=
  (chatTracking C).state (.chat k) .ended trace

theorem fetchWarmthMap_obeys {r : RequestId} {tx : OneshotId} {bids : List InferenceBid} (pool : Bool)
    (session : SessionId) : (fetchWarmthMap pool session).Obeys ChatPhase.typestate
      (fun s _ => s = .collected r tx bids) (.collected r tx bids) := by
  cases pool with
  | false => rfl
  | true =>
    refine ⟨.warmth, fun answer => ?_⟩
    cases answer <;> rfl

theorem sessionKeyOr_obeys {r : RequestId} {tx : OneshotId} {bids : List InferenceBid} (given : Option String) :
    (sessionKeyOr given).Obeys ChatPhase.typestate (fun s _ => s = .addressed r tx bids)
      (.addressed r tx bids) := by
  cases given with
  | some key => rfl
  | none => exact ⟨.key, fun _ => rfl⟩

theorem dispatchInference_obeys {r : RequestId} {tx : OneshotId} {bids : List InferenceBid} (peer : PeerId)
    {dispatch : InferenceDispatch} (own : dispatch.dispatchToken.requestId = r) :
    (dispatchInference peer dispatch).Obeys ChatPhase.typestate (fun _ _ => True) (.addressed r tx bids) := by
  subst own
  refine ⟨.open_result, fun out => ⟨.dispatch rfl, fun sent => ?_⟩⟩
  cases sent with
  | false => exact trivial
  | true => exact ⟨.result, fun _ => trivial⟩

theorem dispatchToWinner_obeys {r : RequestId} {tx : OneshotId} {bids : List InferenceBid}
    (enclaveKey : C.SigningKey) (req : ChatCompletionRequest) (sessionId : SessionId) (message : String)
    (winner : InferenceBid) :
    (dispatchToWinner X C enclaveKey req r sessionId message winner).Obeys ChatPhase.typestate
      (fun _ _ => True) (.addressed r tx bids) := by
  unfold dispatchToWinner
  cases decodeHexPubkey req.clientPubkeyHex with
  | error e => exact trivial
  | ok clientPubkey =>
    refine ⟨.clock, fun nowMs => ?_⟩
    apply (sessionKeyOr_obeys req.sessionKey).seq
    intro s sessionKey same
    subst same
    cases X.parsePeerId winner.nodePeerId.value with
    | error e => exact trivial
    | ok peer =>
      apply (dispatchInference_obeys peer rfl).seq
      intro s reply _
      cases reply with
      | error e => exact trivial
      | ok reply =>
        dsimp only
        cases reply.error <;> exact trivial

theorem runAuction_obeys (enclaveKey : C.SigningKey) (pool : Bool) (req : ChatCompletionRequest)
    (request : InferenceRequest) (message : String) :
    (runAuction X C enclaveKey pool req request message).Obeys ChatPhase.typestate (fun _ _ => True)
      (.named request.requestId) := by
  refine ⟨.open_reply, fun tx => ⟨.publish rfl, fun sent => ?_⟩⟩
  cases sent with
  | false => exact trivial
  | true =>
    refine ⟨.await, fun answer => ?_⟩
    cases answer with
    | error e => exact trivial
    | ok rx =>
      refine ⟨.collect, fun bids => ?_⟩
      apply (fetchWarmthMap_obeys pool request.sessionId).seq
      intro s warmth same
      subst same
      cases pickWinnerWithWarmth bids warmth with
      | none => exact trivial
      | some winner => exact ⟨.address, fun _ => dispatchToWinner_obeys enclaveKey req _ message winner⟩

theorem serveChat_obeys (enclaveKey : C.SigningKey) (pool : Bool) (req : ChatCompletionRequest) :
    (serveChat X C enclaveKey pool req).Obeys ChatPhase.typestate (fun s _ => s = .ended) .start := by
  have completed : (chatCompletions X C enclaveKey pool req).Obeys ChatPhase.typestate
      (fun _ _ => True) .start := by
    refine ⟨.name, fun r => ?_⟩
    have session : (sessionOf req.sessionId).Obeys ChatPhase.typestate (fun s _ => s = .named r) (.named r) := by
      cases req.sessionId with
      | some id => rfl
      | none => exact ⟨.session, fun _ => rfl⟩
    apply session.seq
    intro s session same
    subst same
    dsimp only
    cases decryptMessagesIfEncrypted X req >>= newUserMessage with
    | error e => exact trivial
    | ok message => exact runAuction_obeys enclaveKey pool req _ message
  apply completed.seq
  intro s result _
  refine ⟨.respond, fun _ => ?_⟩
  cases s <;> rfl

theorem chat_obeyed {loop : EventLoop C} {archive : ReceiptArchive} {ttl : UInt64} {w : World C}
    {trace : List (World C × Label)} (run : Runs X (World.start loop archive ttl) trace w) (k : Nat) :
    (chatTracking C).Obeyed (w.tasks (.chat k)) (chatPhase k trace) := by
  apply (chatTracking C).obeyed run rfl
  intro m label task begun
  cases begun with
  | serve k req => exact serveChat_obeys _ _ req
  | drop k => rfl

theorem chatPhase_step {loop : EventLoop C} {archive : ReceiptArchive} {ttl : UInt64} {m n : World C}
    {trace : List (World C × Label)} {label : Label} (run : Runs X (World.start loop archive ttl) trace m)
    (step : Step X m label n) (k : Nat) :
    chatPhase k (trace ++ [(m, label)]) = chatPhase k trace ∨
      (∃ op answer, label = .call (.chat k) op answer ∧ (chatPhase k trace).Allowed op ∧
        chatPhase k (trace ++ [(m, label)]) = (chatPhase k trace).advance op answer) ∨
      chatPhase k (trace ++ [(m, label)]) = .start ∨ chatPhase k (trace ++ [(m, label)]) = .ended := by
  unfold chatPhase
  rw [Tracking.state_snoc]
  rcases step_starts step (.chat k) with ⟨calls, ⟨starts, _⟩ | ⟨starts, _⟩⟩ | ⟨op, next, answer, _, rfl, _⟩
  · exact .inl (Tracking.next_other _ _ _ starts calls)
  · rw [Tracking.next_starts _ _ _ starts]
    cases label with
    | request k req => exact .inr (.inr (.inl rfl))
    | _ => exact .inr (.inr (.inr rfl))
  · refine .inr (.inl ⟨op, answer, rfl, (chatTracking C).allowed (chat_obeyed run k) step, ?_⟩)
    exact Tracking.next_call _ _ _ _ _

def Label.sends : Label → Option MeshCommand
  | .call _ (.sendCommand sent) true => some sent
  | .external sent => some sent
  | _ => none

def Label.takes : Label → Option MeshCommand
  | .command taken _ => some taken
  | _ => none

def sentCommands (trace : List (World C × Label)) : List MeshCommand :=
  trace.filterMap fun step => step.2.sends

def handledCommands (trace : List (World C × Label)) : List MeshCommand :=
  trace.filterMap fun step => step.2.takes

theorem sentCommands_snoc (trace : List (World C × Label)) (m : World C) (label : Label) :
    sentCommands (trace ++ [(m, label)]) = sentCommands trace ++ label.sends.toList := by
  cases sent : label.sends <;> simp [sentCommands, List.filterMap_append, sent]

theorem handledCommands_snoc (trace : List (World C × Label)) (m : World C) (label : Label) :
    handledCommands (trace ++ [(m, label)]) = handledCommands trace ++ label.takes.toList := by
  cases taken : label.takes <;> simp [handledCommands, List.filterMap_append, taken]

theorem perform_commands {w w' : World C} {id : TaskId} {op : Call} {answer : Answer op}
    (answered : w.perform X op answer = some w') :
    w'.commands = w.commands ++ (Label.call id op answer).sends.toList := by
  cases performed answered with
  | silent quiet =>
    cases op with
    | sendCommand command => cases quiet
    | _ => exact (List.append_nil _).symm
  | sent command alive => rfl
  | _ => exact (List.append_nil _).symm

theorem step_commands {m n : World C} {label : Label} (step : Step X m label n) :
    m.commands ++ label.sends.toList = label.takes.toList ++ n.commands := by
  cases step with
  | cancel k => simp [Label.sends, Label.takes, (dropChat_keeps m k).2.1]
  | @call w'' id op next answer waiting answered =>
    rw [← perform_commands answered]
    rfl
  | command idle queued fresh outFresh => simpa [Label.sends, Label.takes, World.setTask] using queued
  | external alive room => rfl
  | _ => simp [Label.sends, Label.takes, World.setTask, World.receiveBid]

/-- Commands are handled in the order they were sent. -/
theorem commands_in_order {loop : EventLoop C} {archive : ReceiptArchive} {ttl : UInt64} {w : World C}
    {trace : List (World C × Label)} (run : Runs X (World.start loop archive ttl) trace w) :
    sentCommands trace = handledCommands trace ++ w.commands := by
  refine run.history (I := fun trace w => sentCommands trace = handledCommands trace ++ w.commands) rfl ?_
  intro before m label n _ _ step kept
  rw [sentCommands_snoc, handledCommands_snoc, kept, List.append_assoc, step_commands step, List.append_assoc]

end Coordinator
