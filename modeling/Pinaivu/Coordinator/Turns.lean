import Pinaivu.Coordinator.Executions

namespace Coordinator

open Protocol Crypto Async

variable {C : Primitives} {X : Externals}

/-- How far the event loop has come with an ack that pays: its receipt is to be stored, or its rows are
    going in and its job is still to be offered. -/
inductive TurnPhase where
  | idle
  | storing (requestId : RequestId)
  | paying (requestId : RequestId)

def Call.settles : Call → Bool
  | .insertPayment _ => true
  | .trySendJob _ => true
  | _ => false

namespace TurnPhase

inductive Allowed : TurnPhase → Call → Prop where
  | other {op : Call} (apart : op.settles = false) : Allowed .idle op
  | store {r : RequestId} (receipt : RoutingReceipt) : Allowed (.storing r) (.putReceipt receipt)
  | panic {r : RequestId} : Allowed (.storing r) .panic
  | warm {r : RequestId} (peer : String) (session : SessionId) :
      Allowed (.paying r) (.upsertSessionCache peer session)
  | mint {r : RequestId} : Allowed (.paying r) .newUuid
  | insert (row : PendingPayment) : Allowed (.paying row.requestId) (.insertPayment row)
  | offer (job : SettlementJob) : Allowed (.paying job.requestId) (.trySendJob job)

def advance : TurnPhase → (op : Call) → Answer op → TurnPhase
  | .storing r, .putReceipt _, .ok () => .paying r
  | .storing _, .putReceipt _, .error _ => .idle
  | .paying _, .insertPayment _, .error _ => .idle
  | .paying _, .trySendJob _, _ => .idle
  | phase, _, _ => phase

end TurnPhase

def turnTracking (C : Primitives) : Tracking C TurnPhase where
  typestate := ⟨TurnPhase.Allowed, TurnPhase.advance⟩
  ends phase := phase = .idle
  fresh m
    | .event (.completion _ ack _ _) =>
      if Verified C ack ∧ computePayouts ack (m.loop.addressesFor ack.requestId) ≠ [] then .storing ack.requestId
      else .idle
    | _ => .idle

def turnPhase (trace : List (World C × Label)) : TurnPhase := (turnTracking C).state .eventLoop .idle trace

variable {self : EventLoop C}

theorem idle_obeys {task : Task Unit}
    (sat : task.Sat (fun op => op.settles = false) (fun _ _ => True) fun _ => True) :
    (turnTracking C).Obeyed task .idle := by
  refine sat.obeys (fun op apart => ⟨.other apart, fun answer => ?_⟩) fun _ _ => rfl
  cases op with
  | _ => rfl

theorem insertPending_obeys {r : RequestId} (lines : List PayoutLine) :
    (insertPending r lines).Obeys (turnTracking C).typestate
      (fun s result => s = match result with
        | .ok () => .paying r
        | .error _ => .idle) (.paying r) := by
  induction lines with
  | nil => rfl
  | cons line lines ih =>
    refine ⟨.mint, fun id => ⟨.insert (line.row id r), fun answer => ?_⟩⟩
    cases answer with
    | error e => rfl
    | ok => exact ih

theorem queuePayments_obeys (pool : self.pgPool = true) (queue : self.settlementTx = true) {lines : List PayoutLine}
    (pays : lines ≠ []) (receipt : RoutingReceipt) :
    (self.queuePayments X receipt lines).Obeys (turnTracking C).typestate (fun s _ => s = .idle)
      (.paying receipt.requestId) := by
  unfold EventLoop.queuePayments
  rw [if_pos (by simp [pool, pays])]
  refine (insertPending_obeys lines).seq ?_
  intro s result same
  subst same
  cases result with
  | error e => rfl
  | ok =>
    change Routine.Obeys _ _ (self.enqueueSettlement X receipt) _
    unfold EventLoop.enqueueSettlement
    rw [if_pos queue]
    exact ⟨.offer ⟨receipt.requestId, _⟩, fun _ => rfl⟩

theorem warmNodes_obeys {r : RequestId} (session : Option SessionId) (receipt : RoutingReceipt) :
    (self.warmNodes session receipt).Obeys (turnTracking C).typestate (fun s _ => s = .paying r) (.paying r) := by
  have warm : (self.warmNodes session receipt).Sat (fun op => ∃ peer session, op = .upsertSessionCache peer session)
      (fun _ _ => True) fun _ => True := warmNodes_sat self session receipt fun peer session => ⟨peer, session, rfl⟩
  refine warm.obeys ?_ fun _ _ => rfl
  intro op given
  obtain ⟨peer, session, rfl⟩ := given
  exact ⟨.warm peer session, fun _ => rfl⟩

theorem paying_obeys (pool : self.pgPool = true) (queue : self.settlementTx = true) {sender : PeerId}
    {ack : CompletionAck} (verified : Verified C ack) (channel : Nat) (nowMs : UInt64)
    (pays : computePayouts ack (self.addressesFor ack.requestId) ≠ []) :
    (turnTracking C).Obeyed (self.handleCompletionAck X sender ack channel nowMs).2 (.storing ack.requestId) := by
  cases signed : self.receiptFor sender ack nowMs with
  | none =>
    rw [handleCompletionAck_verified verified, ← EventLoop.receiptFor, signed]
    exact ⟨.panic, fun answer => answer.elim⟩
  | some receipt =>
    rw [handleCompletionAck_stores X verified channel signed]
    refine ⟨.store receipt, fun answer => ?_⟩
    cases answer with
    | error e => exact ⟨.other rfl, fun _ => rfl⟩
    | ok =>
      refine (warmNodes_obeys _ receipt).seq ?_
      intro s _ same
      subst same
      have queued := queuePayments_obeys (X := X) pool queue pays receipt
      rw [(receiptFor_eq_some signed).1] at queued
      refine queued.seq ?_
      intro s _ same
      subst same
      exact ⟨.other rfl, fun _ => rfl⟩

theorem command_obeys (command : MeshCommand) (swarm : SwarmAnswers) :
    (turnTracking C).Obeyed (self.handleCommand command swarm).2 .idle := by
  apply idle_obeys
  refine handleCommand_calls (fun op minor => ?_) self command swarm fun _ _ _ => rfl
  cases op with
  | _ => first | rfl | cases minor

theorem event_obeys (pool : self.pgPool = true) (queue : self.settlementTx = true) {m : World C} (own : m.loop = self)
    (event : Event) :
    (turnTracking C).Obeyed (self.handleEvent X event).2 ((turnTracking C).fresh m (.event event)) := by
  have minor (op : Call) (minor : op.minor) : op.settles = false := by
    cases op with
    | _ => first | rfl | cases minor
  have idle (unpaid : ∀ sender ack channel nowMs, event = .completion sender ack channel nowMs → Verified C ack →
      computePayouts ack (self.addressesFor ack.requestId) = []) :
      (turnTracking C).Obeyed (self.handleEvent X event).2 .idle := by
    apply idle_obeys
    refine handleEvent_calls minor self event (fun _ _ _ _ _ _ _ _ _ => rfl) ?_ (fun _ _ _ _ _ => rfl)
      fun _ _ _ _ _ _ _ => rfl
    intro sender ack channel nowMs receipt shape verified _
    rw [unpaid sender ack channel nowMs shape verified]
    exact ⟨rfl, fun _ => ⟨fun _ _ member => absurd member List.not_mem_nil, fun pays => absurd rfl pays⟩⟩
  subst own
  cases event with
  | completion sender ack channel nowMs =>
    by_cases pays : Verified C ack ∧ computePayouts ack (m.loop.addressesFor ack.requestId) ≠ []
    · simp only [turnTracking, if_pos pays]
      exact paying_obeys pool queue pays.1 channel nowMs pays.2
    · simp only [turnTracking, if_neg pays]
      apply idle
      intro _ _ _ _ shape verified
      cases shape
      by_contra some
      exact pays ⟨verified, some⟩
  | _ => exact idle fun _ _ _ _ => nofun

def EventLoop.options (self : EventLoop C) : C.SigningKey × Bool × Bool :=
  (self.enclaveKey, self.pgPool, self.settlementTx)

theorem step_options {m n : World C} {label : Label} (step : Step X m label n) : n.loop.options = m.loop.options := by
  cases step with
  | cancel k => rw [(dropChat_keeps m k).1]
  | call waiting answered => exact congrArg EventLoop.options (perform_effect answered).loop
  | @command command rest swarm idle queued fresh outFresh =>
    cases command with
    | publish request tx =>
      simp only [World.setTask, EventLoop.handleCommand, EventLoop.publishRequest]
      split <;> rfl
    | setPayoutAddresses requestId addresses =>
      simp only [World.setTask, EventLoop.handleCommand]
      split <;> rfl
    | _ => rfl
  | @event event idle =>
    cases event with
    | completion sender ack channel nowMs =>
      simp only [EventLoop.options, World.setTask, EventLoop.handleEvent, handleCompletionAck_loop]
    | inferenceResponse outId response =>
      simp only [World.setTask, EventLoop.handleEvent, EventLoop.replyInference]
      split <;> rfl
    | inferenceFailure outId error =>
      simp only [World.setTask, EventLoop.handleEvent, EventLoop.replyInference]
      split <;> rfl
    | _ => rfl
  | _ => rfl

variable {loop : EventLoop C} {archive : ReceiptArchive} {ttl : UInt64} {trace : List (World C × Label)} {w m n : World C}
  {label : Label}

theorem run_options (run : Runs X (World.start loop archive ttl) trace w) :
    w.loop.enclaveKey = loop.enclaveKey ∧ w.loop.pgPool = loop.pgPool ∧ w.loop.settlementTx = loop.settlementTx := by
  have kept : w.loop.options = loop.options :=
    run.invariant (I := fun w => w.loop.options = loop.options) rfl fun _ _ _ _ step kept => (step_options step).trans kept
  simpa only [EventLoop.options, Prod.mk.injEq] using kept

theorem options_at (run : Runs X (World.start loop archive ttl) trace w) (member : (m, label) ∈ trace) :
    m.loop.enclaveKey = loop.enclaveKey ∧ m.loop.pgPool = loop.pgPool ∧ m.loop.settlementTx = loop.settlementTx := by
  obtain ⟨before, after, shape⟩ := List.append_of_mem member
  exact run_options (run.split shape).1

theorem turn_obeyed (pool : loop.pgPool = true) (queue : loop.settlementTx = true)
    (run : Runs X (World.start loop archive ttl) trace w) :
    (turnTracking C).Obeyed (w.tasks .eventLoop) (turnPhase trace) := by
  refine (turnTracking C).obeyed_reachable run rfl ?_
  intro before m label task reached begun
  obtain ⟨_, pool', queue'⟩ := run_options reached
  cases begun with
  | command command swarm => exact command_obeys command swarm
  | event event => exact event_obeys (pool'.trans pool) (queue'.trans queue) rfl event

theorem turnPhase_step (pool : loop.pgPool = true) (queue : loop.settlementTx = true)
    (run : Runs X (World.start loop archive ttl) trace m) (step : Step X m label n) :
    turnPhase (trace ++ [(m, label)]) = turnPhase trace ∨
      (∃ op answer, label = .call .eventLoop op answer ∧ (turnPhase trace).Allowed op ∧
        turnPhase (trace ++ [(m, label)]) = (turnPhase trace).advance op answer) ∨
      turnPhase trace = .idle ∧ (turnPhase (trace ++ [(m, label)]) = .idle ∨
        ∃ sender ack channel nowMs, label = .event (.completion sender ack channel nowMs) ∧ Verified C ack ∧
          computePayouts ack (m.loop.addressesFor ack.requestId) ≠ [] ∧
          turnPhase (trace ++ [(m, label)]) = .storing ack.requestId) := by
  have obeyed := turn_obeyed pool queue run
  rcases (turnTracking C).state_step obeyed step with same | called | ⟨starts, begun⟩
  · exact .inl same
  · exact .inr (.inl called)
  · have ended : turnPhase trace = .idle := by
      have free : m.tasks .eventLoop = .done () := by
        cases step with
        | command idle => exact idle
        | event idle => exact idle
        | _ => cases starts
      rw [free] at obeyed
      exact obeyed
    refine .inr (.inr ⟨ended, ?_⟩)
    change turnPhase (trace ++ [(m, label)]) = _ at begun
    rw [begun]
    cases label with
    | event event =>
      cases event with
      | completion sender ack channel nowMs =>
        by_cases pays : Verified C ack ∧ computePayouts ack (m.loop.addressesFor ack.requestId) ≠ []
        · exact .inr ⟨sender, ack, channel, nowMs, rfl, pays.1, pays.2, if_pos pays⟩
        · exact .inl (if_neg pays)
      | _ => exact .inl rfl
    | _ => exact .inl rfl

end Coordinator
