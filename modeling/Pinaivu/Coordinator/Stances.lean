import Pinaivu.Coordinator.Executions

namespace Coordinator

open Protocol Crypto Async

variable {C : Primitives} {X : Externals} {w m n : World C} {label : Label}

/-- What a `chat_completions` call is in the middle of, as its next call shows. -/
inductive ChatStance where
  | free
  | holding (tx : OneshotId)
  | reply (tx : OneshotId)
  | bids (rx : BidChannelId)
  | result (out : OneshotId)

def Call.stance : Call → ChatStance
  | .sendCommand (.publish _ tx) => .holding tx
  | .sendCommand (.dispatchInference _ _ out) => .holding out
  | .awaitPublish tx => .reply tx
  | .collectBids rx => .bids rx
  | .awaitInference out => .result out
  | _ => .free

def ChatStance.after : (op : Call) → Answer op → ChatStance
  | .newOneshot _, tx => .holding tx
  | .sendCommand (.publish _ tx), true => .reply tx
  | .sendCommand (.dispatchInference _ _ out), true => .result out
  | .awaitPublish _, .ok rx => .bids rx
  | _, _ => .free

/-- One call settles what the next one is about: a channel just made is sent off, a command sent is
    waited for, a bid channel received is drained. -/
def stances : Typestate Call Answer ChatStance where
  allowed s op := op.stance = s
  advance _ op answer := .after op answer

def stanceOf : Task Unit → ChatStance
  | .done _ => .free
  | .call op _ => op.stance

def KeepsStance (task : Task Unit) (s : ChatStance) : Prop := task.Obeys stances (fun s _ => s = .free) s

theorem KeepsStance.stanceOf_eq {task : Task Unit} {s : ChatStance} (keeps : KeepsStance task s) :
    stanceOf task = s := by
  cases task with
  | done a => exact keeps.symm
  | call op next => exact keeps.1

theorem fetchWarmthMap_stance (pool : Bool) (session : SessionId) :
    (fetchWarmthMap pool session).Obeys stances (fun s _ => s = .free) .free := by
  cases pool with
  | false => rfl
  | true =>
    refine ⟨rfl, fun answer => ?_⟩
    cases answer <;> rfl

theorem sessionKeyOr_stance (given : Option String) :
    (sessionKeyOr given).Obeys stances (fun s _ => s = .free) .free := by
  cases given with
  | some key => rfl
  | none => exact ⟨rfl, fun _ => rfl⟩

theorem dispatchInference_stance (peer : PeerId) (dispatch : InferenceDispatch) :
    (dispatchInference peer dispatch).Obeys stances (fun s _ => s = .free) .free := by
  refine ⟨rfl, fun out => ⟨rfl, fun sent => ?_⟩⟩
  cases sent with
  | false => rfl
  | true => exact ⟨rfl, fun _ => rfl⟩

theorem dispatchToWinner_stance (key : C.SigningKey) (req : ChatCompletionRequest) (r : RequestId)
    (sessionId : SessionId) (message : String) (winner : InferenceBid) :
    (dispatchToWinner X C key req r sessionId message winner).Obeys stances (fun s _ => s = .free) .free := by
  unfold dispatchToWinner
  cases decodeHexPubkey req.clientPubkeyHex with
  | error e => rfl
  | ok clientPubkey =>
    refine ⟨rfl, fun nowMs => ?_⟩
    apply (sessionKeyOr_stance req.sessionKey).seq
    intro s sessionKey same
    subst same
    cases X.parsePeerId winner.nodePeerId.value with
    | error e => rfl
    | ok peer =>
      apply (dispatchInference_stance peer _).seq
      intro s reply same
      subst same
      cases reply with
      | error e => rfl
      | ok reply =>
        dsimp only
        cases reply.error <;> rfl

theorem runAuction_stance (key : C.SigningKey) (pool : Bool) (req : ChatCompletionRequest)
    (request : InferenceRequest) (message : String) :
    (runAuction X C key pool req request message).Obeys stances (fun s _ => s = .free) .free := by
  refine ⟨rfl, fun tx => ⟨rfl, fun sent => ?_⟩⟩
  cases sent with
  | false => rfl
  | true =>
    refine ⟨rfl, fun joined => ?_⟩
    cases joined with
    | error e => rfl
    | ok rx =>
      refine ⟨rfl, fun bids => ?_⟩
      apply (fetchWarmthMap_stance pool request.sessionId).seq
      intro s warmth same
      subst same
      cases pickWinnerWithWarmth bids warmth with
      | none => rfl
      | some winner =>
        refine ⟨rfl, fun told => ?_⟩
        cases told <;> exact dispatchToWinner_stance key req _ _ message winner

theorem serveChat_stance (key : C.SigningKey) (pool : Bool) (req : ChatCompletionRequest) :
    KeepsStance (serveChat X C key pool req) .free := by
  have completed : (chatCompletions X C key pool req).Obeys stances (fun s _ => s = .free) .free := by
    refine ⟨rfl, fun r => ?_⟩
    have session : (sessionOf req.sessionId).Obeys stances (fun s _ => s = .free) .free := by
      cases req.sessionId with
      | some id => rfl
      | none => exact ⟨rfl, fun _ => rfl⟩
    apply session.seq
    intro s session same
    subst same
    dsimp only
    cases decryptMessagesIfEncrypted X req >>= newUserMessage with
    | error e => rfl
    | ok message => exact runAuction_stance key pool req _ message
  apply completed.seq
  intro s result same
  subst same
  exact ⟨rfl, fun _ => rfl⟩

namespace World

def stance (w : World C) (k : Nat) : ChatStance := stanceOf (w.tasks (.chat k))

def StancesKept (w : World C) : Prop := ∀ k, KeepsStance (w.tasks (.chat k)) (w.stance k)

end World

theorem stance_step (kept : m.StancesKept) (step : Step X m label n) (k : Nat) :
    KeepsStance (n.tasks (.chat k)) (n.stance k) ∧
      (((∀ op answer, label ≠ .call (.chat k) op answer) ∧ label.starts ≠ some (.chat k) ∧ n.stance k = m.stance k) ∨
        (label.starts = some (.chat k) ∧ n.stance k = .free) ∨
        ∃ op answer, label = .call (.chat k) op answer ∧ m.stance k = op.stance ∧
          n.stance k = .after op answer) := by
  rcases step_starts step (.chat k) with
    ⟨calls, ⟨starts, same⟩ | ⟨starts, begun⟩⟩ | ⟨op, next, answer, _, rfl, waiting, _, moved⟩
  · have still : n.stance k = m.stance k := congrArg stanceOf same
    refine ⟨?_, .inl ⟨calls, starts, still⟩⟩
    rw [same, still]
    exact kept k
  · have fresh : KeepsStance (n.tasks (.chat k)) .free := by
      generalize n.tasks (.chat k) = task at begun
      cases begun with
      | serve k req => exact serveChat_stance _ _ req
      | drop k => rfl
    have free : n.stance k = .free := fresh.stanceOf_eq
    refine ⟨?_, .inr (.inl ⟨starts, free⟩)⟩
    rwa [free]
  · obtain ⟨allowed, rest⟩ := (kept k).step waiting answer
    have next_stance : n.stance k = .after op answer := by
      rw [World.stance, moved]
      exact KeepsStance.stanceOf_eq rest
    refine ⟨?_, .inr (.inr ⟨op, answer, rfl, allowed.symm, next_stance⟩)⟩
    rw [moved, next_stance]
    exact rest

/-- What the event loop calls, answers to waiting calls apart. -/
def loopMay (loop : EventLoop C) : Call → Prop
  | .sendBid rx _ => ∃ r, loop.bidSubscribers r = some rx
  | .putReceipt _ => True
  | .insertPayment _ => True
  | .trySendJob _ => True
  | .panic => True
  | op => op.minor

inductive LoopTask (loop : EventLoop C) : Task Unit → Prop where
  | publish (tx : OneshotId) (result : Except String BidChannelId) : LoopTask loop (call (.replyPublish tx result))
  | infer (out : OneshotId) (result : Except String InferenceReply) : LoopTask loop (call (.replyInference out result))
  | other {task : Task Unit} (sat : task.Sat (loopMay loop) (fun _ _ => True) fun _ => True) : LoopTask loop task

theorem loopMay_minor (loop : EventLoop C) (op : Call) (minor : op.minor) : loopMay loop op := by
  cases op <;> first | exact minor | cases minor

theorem begins_loopTask {task : Task Unit} (begun : Begins X m label .eventLoop task) : LoopTask m.loop task := by
  cases begun with
  | command command swarm =>
    cases command with
    | publish request tx => exact .publish tx _
    | _ => exact .other (handleCommand_calls (loopMay_minor m.loop) m.loop _ swarm nofun)
  | event event =>
    cases outcome : event.outcome with
    | some settled =>
      have shape : (m.loop.handleEvent X event).2 = (m.loop.replyInference settled.1 settled.2).2 := by
        cases event with
        | inferenceResponse outId response => cases outcome; rfl
        | inferenceFailure outId error => cases outcome; rfl
        | _ => cases outcome
      rw [shape]
      unfold EventLoop.replyInference
      split
      · exact .infer _ _
      · exact .other trivial
    | none =>
      refine .other (handleEvent_calls (loopMay_minor m.loop) m.loop event ?_ ?_ ?_ fun _ _ _ _ _ _ _ => trivial)
      · exact fun _ _ _ bid tx _ _ _ subscribed => ⟨bid.requestId, subscribed⟩
      · exact fun _ _ _ _ _ _ _ _ => ⟨trivial, fun _ => ⟨fun _ _ _ => trivial, fun _ => trivial⟩⟩
      · intro outId result tx settles
        rw [outcome] at settles
        cases settles

end Coordinator
