import Pinaivu.Async.Rewriting
import Pinaivu.Coordinator.PayoutOrder

namespace Coordinator

open Protocol Crypto Async

/-- Other texts for what clients write, and for the memory contexts that go with it. -/
structure Redaction where
  prompt : String → String
  context : String → String

variable {C : Primitives} {X : Externals} {ρ : Redaction}

def ChatMessage.redact (ρ : Redaction) (message : ChatMessage) : ChatMessage :=
  { message with content := ρ.prompt message.content }

def ChatCompletionRequest.redact (ρ : Redaction) (req : ChatCompletionRequest) : ChatCompletionRequest :=
  { req with
    messages := req.messages.map (·.redact ρ)
    memwalContext := req.memwalContext.map ρ.context }

def Externals.redact (ρ : Redaction) (X : Externals) : Externals :=
  { X with messagesFromSlice := fun bytes => (X.messagesFromSlice bytes).map fun messages => messages.map (·.redact ρ) }

def MeshCommand.redact (ρ : Redaction) : MeshCommand → MeshCommand
  | .dispatchInference peer dispatch replyTx =>
    .dispatchInference peer { dispatch with
      newUserMessage := ρ.prompt dispatch.newUserMessage
      memwalContext := dispatch.memwalContext.map ρ.context } replyTx
  | command => command

def Call.redact (ρ : Redaction) : Call → Call
  | .sendCommand command => .sendCommand (command.redact ρ)
  | op => op

theorem answer_redact (op : Call) : Answer (op.redact ρ) = Answer op := by
  cases op <;> rfl

def redaction (ρ : Redaction) : Rewriting Call Answer where
  op := Call.redact ρ
  forth op answer := cast (answer_redact op).symm answer
  back op answer := cast (answer_redact op) answer
  back_forth op answer := by rw [cast_cast, cast_eq]

def Label.redact (ρ : Redaction) : Label → Label
  | .request k req => .request k (req.redact ρ)
  | .call id op answer => .call id (op.redact ρ) ((redaction ρ).forth op answer)
  | .command given swarm => .command (given.redact ρ) swarm
  | .external given => .external (given.redact ρ)
  | label => label

/-- The prompts of a state are in the dispatches that are under way and in the calls that wait to make them. -/
def World.redact (ρ : Redaction) (w : World C) : World C :=
  { w with
    tasks := fun id => (w.tasks id).rewrite (redaction ρ)
    commands := w.commands.map (·.redact ρ) }

theorem redaction_fixes {id : TaskId} {op : Call} (own : id.owns op) (other : ∀ k, id ≠ .chat k) :
    (redaction ρ).Fixes op := by
  cases op with
  | sendCommand command =>
    cases id with
    | chat k => exact absurd rfl (other k)
    | _ => cases own
  | _ => rfl

theorem newUserMessage_redact (messages : List ChatMessage) :
    newUserMessage (messages.map (·.redact ρ)) = (newUserMessage messages).map ρ.prompt := by
  have roles : ((fun message : ChatMessage => decide (message.role = "user")) ∘ ChatMessage.redact ρ) =
      fun message => decide (message.role = "user") := rfl
  unfold newUserMessage
  rw [← List.map_reverse, List.find?_map, roles]
  cases messages.reverse.find? (·.role = "user") <;> rfl

theorem decryptMessages_redact (x25519Hex encB64 nonceB64 : String) :
    decryptMessages (X.redact ρ) x25519Hex encB64 nonceB64 =
      (decryptMessages X x25519Hex encB64 nonceB64).map fun messages => messages.map (·.redact ρ) := by
  simp only [decryptMessages, Externals.redact, bind, Except.bind]
  cases Wire.hexDecode x25519Hex.toList with
  | none => rfl
  | some bytes =>
    dsimp only [Option.elim]
    cases toKey bytes with
    | none => rfl
    | some clientPub =>
      dsimp only
      cases X.decodeBase64 encB64 with
      | none => rfl
      | some ciphertext =>
        dsimp only
        cases X.decodeBase64 nonceB64 with
        | none => rfl
        | some nonce =>
          dsimp only
          split
          · rfl
          · cases X.decrypt clientPub nonce ciphertext with
            | none => rfl
            | some plaintext =>
              dsimp only
              cases X.messagesFromSlice plaintext with
              | none => rfl
              | some messages => rfl

theorem userMessage_redact (req : ChatCompletionRequest) :
    (decryptMessagesIfEncrypted (X.redact ρ) (req.redact ρ) >>= newUserMessage) =
      (decryptMessagesIfEncrypted X req >>= newUserMessage).map ρ.prompt := by
  have opened : decryptMessagesIfEncrypted (X.redact ρ) (req.redact ρ) =
      (decryptMessagesIfEncrypted X req).map fun messages => messages.map (·.redact ρ) := by
    simp only [decryptMessagesIfEncrypted, ChatCompletionRequest.redact]
    split
    · exact decryptMessages_redact _ _ _
    · rfl
    · rfl
  rw [opened]
  cases decryptMessagesIfEncrypted X req with
  | error e => rfl
  | ok messages => exact newUserMessage_redact messages

theorem sessionKeyOr_redact (given : Option String) : (sessionKeyOr given).rewrite (redaction ρ) = sessionKeyOr given := by
  cases given <;> rfl

theorem sessionOf_redact (given : Option SessionId) : (sessionOf given).rewrite (redaction ρ) = sessionOf given := by
  cases given <;> rfl

theorem fetchWarmthMap_redact (pool : Bool) (session : SessionId) :
    (fetchWarmthMap pool session).rewrite (redaction ρ) = fetchWarmthMap pool session := by
  unfold fetchWarmthMap
  cases pool with
  | false => rfl
  | true =>
    apply Routine.rewrite_perform
    · rfl
    intro answer
    cases answer <;> rfl

theorem sendCommand_redact {α : Type} (command : MeshCommand) {f f' : Bool → Task α}
    (rest : ∀ sent, (f sent).rewrite (redaction ρ) = f' sent) :
    (call (.sendCommand command) >>= f).rewrite (redaction ρ) =
      call (.sendCommand (command.redact ρ)) >>= f' := by
  have same : (fun sent => (f sent).rewrite (redaction ρ)) = f' := funext rest
  exact congrArg (Routine.call (Call.sendCommand (command.redact ρ))) same

theorem publishRequest_redact (request : InferenceRequest) :
    (publishRequest request).rewrite (redaction ρ) = publishRequest request := by
  unfold publishRequest
  apply Routine.rewrite_perform
  · rfl
  intro tx
  apply sendCommand_redact
  intro sent
  cases sent <;> rfl

theorem dispatchInference_redact (peer : PeerId) (token : DispatchToken) (sessionKey message : String)
    (context : Option String) :
    (dispatchInference peer ⟨token, sessionKey, message, context⟩).rewrite (redaction ρ) =
      dispatchInference peer ⟨token, sessionKey, ρ.prompt message, context.map ρ.context⟩ := by
  unfold dispatchInference
  apply Routine.rewrite_perform
  · rfl
  intro tx
  apply sendCommand_redact
  intro sent
  cases sent <;> rfl

theorem dispatchToWinner_redact (key : C.SigningKey) (req : ChatCompletionRequest) (r : RequestId) (s : SessionId)
    (message : String) (winner : InferenceBid) :
    (dispatchToWinner X C key req r s message winner).rewrite (redaction ρ) =
      dispatchToWinner (X.redact ρ) C key (req.redact ρ) r s (ρ.prompt message) winner := by
  simp only [dispatchToWinner, ChatCompletionRequest.redact, Externals.redact]
  cases decodeHexPubkey req.clientPubkeyHex with
  | error e => rfl
  | ok clientPubkey =>
    apply Routine.rewrite_perform
    · rfl
    intro nowMs
    apply Routine.rewrite_seq (sessionKeyOr_redact _)
    intro sessionKey
    cases X.parsePeerId winner.nodePeerId.value with
    | error e => rfl
    | ok peer =>
      apply Routine.rewrite_seq (dispatchInference_redact _ _ _ _ _)
      intro result
      cases result with
      | error e => rfl
      | ok reply =>
        dsimp only
        cases reply.error <;> rfl

theorem runAuction_redact (key : C.SigningKey) (pool : Bool) (req : ChatCompletionRequest) (request : InferenceRequest)
    (message : String) :
    (runAuction X C key pool req request message).rewrite (redaction ρ) =
      runAuction (X.redact ρ) C key pool (req.redact ρ) request (ρ.prompt message) := by
  unfold runAuction
  apply Routine.rewrite_seq (publishRequest_redact _)
  intro result
  cases result with
  | error e => rfl
  | ok rx =>
    apply Routine.rewrite_perform
    · rfl
    intro bids
    apply Routine.rewrite_seq (fetchWarmthMap_redact _ _)
    intro warmth
    cases pickWinnerWithWarmth bids warmth with
    | none => rfl
    | some winner =>
      apply sendCommand_redact
      intro sent
      exact dispatchToWinner_redact key req _ _ message winner

theorem serveChat_redact (key : C.SigningKey) (pool : Bool) (req : ChatCompletionRequest) :
    (serveChat X C key pool req).rewrite (redaction ρ) = serveChat (X.redact ρ) C key pool (req.redact ρ) := by
  have completed : (chatCompletions X C key pool req).rewrite (redaction ρ) =
      chatCompletions (X.redact ρ) C key pool (req.redact ρ) := by
    unfold chatCompletions
    apply Routine.rewrite_perform
    · rfl
    intro requestId
    apply Routine.rewrite_seq (sessionOf_redact _)
    intro session
    dsimp only
    rw [userMessage_redact]
    cases decryptMessagesIfEncrypted X req >>= newUserMessage with
    | error e => rfl
    | ok message => exact runAuction_redact key pool req _ message
  apply Routine.rewrite_seq completed
  intro result
  rfl

variable {w w' : World C}

theorem redact_setTask (w : World C) (id : TaskId) (task : Task Unit) :
    (w.setTask id task).redact ρ = (w.redact ρ).setTask id (task.rewrite (redaction ρ)) := by
  simp only [World.redact, World.setTask, World.mk.injEq, true_and, and_true]
  funext other
  by_cases same : other = id
  · subst same
    simp only [Function.update_self]
  · simp only [Function.update_of_ne same]

theorem loopGone_redact (w : World C) : (w.redact ρ).loopGone = w.loopGone := by
  unfold World.loopGone
  simp only [World.redact]
  cases w.tasks .eventLoop with
  | done a => rfl
  | call op next => cases op <;> rfl

theorem dropChat_redact (w : World C) (k : Nat) : (w.dropChat k).redact ρ = (w.redact ρ).dropChat k := by
  have held : (w.redact ρ).tasks (.chat k) = (w.tasks (.chat k)).rewrite (redaction ρ) := rfl
  simp only [World.dropChat, redact_setTask, held]
  cases w.tasks (.chat k) with
  | done a => rfl
  | call op next =>
    cases op with
    | awaitPublish rx =>
      have waits : (Routine.call (.awaitPublish rx) next).rewrite (redaction ρ) =
          .call (.awaitPublish rx) fun answer => (next answer).rewrite (redaction ρ) := rfl
      have replies : (w.redact ρ).publishReplies rx = w.publishReplies rx := rfl
      rw [waits]
      dsimp only
      rw [replies]
      cases w.publishReplies rx with
      | none => rfl
      | some result => cases result <;> rfl
    | _ => rfl

theorem upsertSessionCache_redact (w : World C) (peer : String) (session : SessionId) :
    (w.upsertSessionCache peer session).redact ρ = (w.redact ρ).upsertSessionCache peer session := by
  unfold World.upsertSessionCache
  split
  · rename_i known
    exact (if_pos known).symm
  · rename_i new
    exact (if_neg new).symm

theorem perform_redact {op : Call} {answer : Answer op} (answered : w.perform X op answer = some w') :
    (w.redact ρ).perform (X.redact ρ) (op.redact ρ) ((redaction ρ).forth op answer) = some (w'.redact ρ) := by
  have gone : (w.redact ρ).loopGone = w.loopGone := loopGone_redact w
  cases op with
  | sendCommand command =>
    cases answer with
    | true =>
      simp only [World.perform] at answered
      split at answered
      · rename_i room
        cases answered
        rw [← gone, ← List.length_map (MeshCommand.redact ρ)] at room
        apply (if_pos room).trans
        simp only [World.redact, List.map_append, List.map_cons, List.map_nil]
      · cases answered
    | false =>
      simp only [World.perform] at answered
      split at answered
      · rename_i shut
        cases answered
        rw [← gone] at shut
        exact if_pos shut
      · cases answered
  | awaitPublish rx =>
    simp only [World.perform] at answered
    split at answered
    · rename_i guard
      cases answered
      rw [← gone] at guard
      exact if_pos guard
    · cases answered
  | awaitInference rx =>
    simp only [World.perform] at answered
    split at answered
    · rename_i guard
      cases answered
      rw [← gone] at guard
      exact if_pos guard
    · cases answered
  | putReceipt receipt =>
    cases answer with
    | ok =>
      cases answered
      rfl
    | error e =>
      simp only [World.perform] at answered
      split at answered
      · rename_i guard
        cases answered
        exact if_pos guard
      · cases answered
  | upsertSessionCache peer session =>
    cases answer with
    | ok =>
      cases answered
      exact congrArg some (upsertSessionCache_redact w peer session).symm
    | error e =>
      cases answered
      rfl
  | selectSessionCache session =>
    cases answer with
    | ok rows =>
      simp only [World.perform] at answered
      split at answered
      · rename_i guard
        cases answered
        exact if_pos guard
      · cases answered
    | error e =>
      cases answered
      rfl
  | selectPending r =>
    cases answer with
    | ok rows =>
      simp only [World.perform] at answered
      split at answered
      · rename_i guard
        cases answered
        exact if_pos guard
      · cases answered
    | error e =>
      cases answered
      rfl
  | insertPayment row =>
    cases answer <;> cases answered <;> rfl
  | markSubmitted id digest =>
    cases answer <;> cases answered <;> rfl
  | markFailed id =>
    cases answer <;> cases answered <;> rfl
  | pushRequest job =>
    cases answer <;> cases answered <;> rfl
  | jobResult job result =>
    cases result <;> cases answered <;> rfl
  | trySendJob job =>
    cases answer with
    | ok =>
      simp only [World.perform] at answered
      split at answered
      · rename_i guard
        cases answered
        exact if_pos guard
      · cases answered
    | error e =>
      simp only [World.perform] at answered
      split at answered
      · cases answered
      · rename_i full
        cases answered
        exact if_neg full
  | recvJob =>
    have queue : (w.redact ρ).jobs = w.jobs := rfl
    simp only [World.perform, Call.redact] at answered ⊢
    rw [queue]
    cases found : w.jobs with
    | nil =>
      rw [found] at answered
      cases answered
    | cons first rest =>
      rw [found] at answered
      dsimp only at answered ⊢
      split at answered
      · rename_i same
        cases answered
        exact if_pos same
      · cases answered
  | sendBid tx bid =>
    cases answer with
    | true =>
      simp only [World.perform] at answered
      split at answered
      · rename_i guard
        cases answered
        exact if_pos guard
      · cases answered
    | false =>
      simp only [World.perform] at answered
      split at answered
      · cases answered
      · rename_i closed
        cases answered
        exact if_neg closed
  | collectBids rx =>
    simp only [World.perform] at answered
    split at answered
    · rename_i guard
      cases answered
      exact if_pos guard
    · cases answered
  | newOneshot r =>
    simp only [World.perform] at answered
    split at answered
    · rename_i guard
      cases answered
      exact if_pos guard
    · cases answered
  | replyPublish tx result =>
    cases result with
    | ok rx =>
      simp only [World.perform] at answered
      split at answered
      · rename_i left
        cases answered
        exact if_pos left
      · rename_i waited
        cases answered
        exact if_neg waited
    | error e =>
      cases answered
      rfl
  | panic => cases answer
  | _ =>
    cases answered
    rfl

theorem handleCommand_redact (self : EventLoop C) (command : MeshCommand) (swarm : SwarmAnswers) :
    self.handleCommand (command.redact ρ) swarm = self.handleCommand command swarm := by
  cases command <;> rfl

theorem handleEvent_redact (self : EventLoop C) (event : Event) :
    self.handleEvent (X.redact ρ) event = self.handleEvent X event := by
  cases event <;> rfl

theorem begun_redact {label : Label} {id : TaskId} {task : Task Unit} (begun : Begins X w label id task)
    (other : ∀ k, id ≠ .chat k) : task.rewrite (redaction ρ) = task :=
  Routine.rewrite_of_sat ((begins_owned begun).mono fun _ own => redaction_fixes own other)

theorem free_redact {id : TaskId} (free : w.tasks id = .done ()) : (w.redact ρ).tasks id = .done () :=
  congrArg (Routine.rewrite (redaction ρ)) free

theorem step_redact {label : Label} (step : Step X w label w') :
    Step (X.redact ρ) (w.redact ρ) (label.redact ρ) (w'.redact ρ) := by
  have notChat : ∀ k, TaskId.eventLoop ≠ .chat k := by
    intro k same
    cases same
  cases step with
  | @request k req free =>
    rw [redact_setTask, serveChat_redact]
    exact .request (free_redact free)
  | cancel k =>
    rw [dropChat_redact]
    exact .cancel k
  | @call n id op next answer waiting answered =>
    have waits : (w.redact ρ).tasks id = .call (op.redact ρ) fun received =>
        (next ((redaction ρ).back op received)).rewrite (redaction ρ) := congrArg (Routine.rewrite (redaction ρ)) waiting
    have step := Step.call waits (perform_redact answered)
    rw [(redaction ρ).back_forth] at step
    rw [redact_setTask]
    exact step
  | @receive k rx next bid rest collecting queued =>
    have waits : (w.redact ρ).tasks (.chat k) = .call (.collectBids rx) fun received =>
        (next received).rewrite (redaction ρ) := congrArg (Routine.rewrite (redaction ρ)) collecting
    exact .receive waits queued
  | @command command rest swarm idle queued fresh outFresh =>
    have waiting : (w.redact ρ).commands = command.redact ρ :: rest.map (MeshCommand.redact ρ) :=
      congrArg (List.map (MeshCommand.redact ρ)) queued
    have step := Step.command (X := X.redact ρ) (free_redact idle) waiting fresh outFresh
    rw [handleCommand_redact] at step
    rw [redact_setTask, begun_redact (.command (X := X) (w := w) command swarm) notChat]
    exact step
  | @event event idle =>
    have free : (w.redact ρ).tasks .eventLoop = .done () := free_redact idle
    have step : Step (X.redact ρ) (w.redact ρ) (.event event) _ := .event free
    rw [handleEvent_redact] at step
    rw [redact_setTask, begun_redact (.event (X := X) (w := w) event) notChat]
    exact step
  | @external command alive room =>
    have left : (w.redact ρ).commands.length < commandCapacity := by
      change (w.commands.map (MeshCommand.redact ρ)).length < commandCapacity
      rwa [List.length_map]
    have step : Step (X.redact ρ) (w.redact ρ) (.external (command.redact ρ)) _ :=
      .external ((loopGone_redact w).trans alive) left
    have sent : (w.commands ++ [command]).map (MeshCommand.redact ρ) = (w.redact ρ).commands ++ [command.redact ρ] :=
      List.map_append
    simp only [World.redact] at step sent ⊢
    rw [sent]
    exact step
  | forward idle =>
    rw [redact_setTask, begun_redact (.forward (X := X) (w := w)) fun _ same => by cases same]
    exact .forward (free_redact idle)
  | @execute k stored free known =>
    rw [redact_setTask, begun_redact (.execute (X := X) (w := w) k stored known) fun _ same => by cases same]
    exact .execute (X := X.redact ρ) (free_redact free) known

/-- The prompts of the clients leave the coordinator in the dispatches to the winners and influence nothing else:
    with other texts for them, a run is a run again, with the same auctions, winners, tokens, receipts, payments
    and settlements, and the new texts in the dispatches. -/
theorem prompts_only_dispatched (X : Externals) (ρ : Redaction) (loop : EventLoop C) (archive : ReceiptArchive)
    (ttl : UInt64) (trace : List (World C × Label)) (w : World C)
    (run : Runs X (World.start loop archive ttl) trace w) :
    Runs (X.redact ρ) (World.start loop archive ttl)
      (trace.map fun taken => (taken.1.redact ρ, taken.2.redact ρ)) (w.redact ρ) :=
  run.map fun _ _ _ step => step_redact step

theorem sample_prompt_replaced :
    let C := Primitives.marking []
    let X := Externals.serde readSampleBid fun text => .ok ⟨text⟩
    let r := sampleBid.requestId
    let dispatch := pricedDispatch C (Vector.replicate 32 0) r sampleBid 1700000000000
    dispatch.newUserMessage = "hello" ∧ ∃ before m w,
      Runs (X.redact ⟨fun _ => "(withheld)", id⟩) (World.start (EventLoop.new (C := C) (Vector.replicate 32 0) false false)
        (.inMemory fun _ => none) 60000) (before ++ [(m, .command (.dispatchInference ⟨sampleBid.nodePeerId.value⟩
          { dispatch with newUserMessage := "(withheld)" } ⟨r, 3⟩) ⟨.ok (), .ok (), 4, 4⟩)]) w := by
  intro C X r dispatch
  obtain ⟨before, m, w, _, reached⟩ := reach_dispatched (C := C) X (Vector.replicate 32 0) sampleBid
    (bidMessage "12D3KooWPeerNode1") rfl (if_pos rfl) rfl
  have replaced := prompts_only_dispatched X ⟨fun _ => "(withheld)", id⟩ _ _ _ _ w reached.run
  rw [List.map_append] at replaced
  exact ⟨rfl, _, _, _, replaced⟩

end Coordinator
