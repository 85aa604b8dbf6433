import Pinaivu.Coordinator.ChatPhases
import Pinaivu.Coordinator.Performed

namespace Coordinator

open Protocol Crypto Async

variable {C : Primitives} {X : Externals} {loop : EventLoop C} {archive : ReceiptArchive} {ttl : UInt64}
  {w m n : World C} {trace : List (World C × Label)} {label : Label}

inductive SettlementPhase where
  | start
  | working (receipt : RoutingReceipt) (row : PendingPayment) (rows : List PendingPayment)
  | recording (receipt : RoutingReceipt) (row : PendingPayment) (digest : String) (rows : List PendingPayment)
  | failing (receipt : RoutingReceipt) (row : PendingPayment) (rows : List PendingPayment)
  | closing (result : Except String Unit)
  | ended

namespace SettlementPhase

inductive Allowed (job : SettlementJob) : SettlementPhase → Call → Prop where
  | select : Allowed job .start (.selectPending job.requestId)
  | settle {receipt : RoutingReceipt} {row : PendingPayment} {rows : List PendingPayment} :
      Allowed job (.working receipt row rows)
        (.settle receipt row.payeeSuiAddress row.amountNanox.toUInt64)
  | submit {receipt : RoutingReceipt} {row : PendingPayment} {digest : String} {rows : List PendingPayment} :
      Allowed job (.recording receipt row digest rows) (.markSubmitted row.id digest)
  | fail {receipt : RoutingReceipt} {row : PendingPayment} {rows : List PendingPayment} :
      Allowed job (.failing receipt row rows) (.markFailed row.id)
  | close {result : Except String Unit} : Allowed job (.closing result) (.jobResult job result)

def resume (receipt : RoutingReceipt) : List PendingPayment → SettlementPhase
  | [] => .closing (.ok ())
  | row :: rows => .working receipt row rows

def selected (X : Externals) (job : SettlementJob) : List PendingPayment → SettlementPhase
  | [] => .closing (.ok ())
  | rows =>
    match X.receiptFromStr job.receiptJson with
    | .error e => .closing (.error ("deserialize receipt: " ++ e))
    | .ok receipt => resume receipt rows

def advance (X : Externals) (job : SettlementJob) : SettlementPhase → (op : Call) → Answer op → SettlementPhase
  | .start, .selectPending _, .ok rows => selected X job rows
  | .start, .selectPending _, .error e => .closing (.error e)
  | .working receipt row rows, .settle _ _ _, .ok digest => .recording receipt row digest rows
  | .working receipt row rows, .settle _ _ _, .error _ => .failing receipt row rows
  | .recording receipt _ _ rows, .markSubmitted _ _, .ok () => resume receipt rows
  | .recording _ _ _ _, .markSubmitted _ _, .error e => .closing (.error e)
  | .failing receipt _ rows, .markFailed _, .ok () => resume receipt rows
  | .failing _ _ _, .markFailed _, .error e => .closing (.error e)
  | _, _, _ => .ended

end SettlementPhase

def executionTracking (C : Primitives) (X : Externals) (job : SettlementJob) : Tracking C SettlementPhase where
  typestate := ⟨SettlementPhase.Allowed job, SettlementPhase.advance X job⟩
  ends phase := phase = .ended
  fresh _ _ := .start

def executionPhase (X : Externals) (k : Nat) (job : SettlementJob) (trace : List (World C × Label)) :
    SettlementPhase :=
  (executionTracking C X job).state (.settlement k job) .ended trace

variable {job : SettlementJob}

theorem settleRows_obeys {receipt : RoutingReceipt} (rows : List PendingPayment) :
    (settleRows receipt rows).Obeys (executionTracking C X job).typestate
      (fun s result => s = .closing result) (.resume receipt rows) := by
  induction rows with
  | nil => rfl
  | cons row rows ih =>
    refine ⟨.settle, fun answer => ?_⟩
    cases answer with
    | ok digest =>
      refine ⟨.submit, fun marked => ?_⟩
      cases marked with
      | ok => exact ih
      | error e => rfl
    | error e =>
      refine ⟨.fail, fun marked => ?_⟩
      cases marked with
      | ok => exact ih
      | error e => rfl

theorem runSettlement_obeys :
    (runSettlement X job).Obeys (executionTracking C X job).typestate (fun s _ => s = .ended) .start := by
  have handled : (handleSettlement X job).Obeys (executionTracking C X job).typestate
      (fun s result => s = .closing result) .start := by
    refine ⟨.select, fun answer => ?_⟩
    cases answer with
    | error e => rfl
    | ok rows =>
      cases rows with
      | nil => rfl
      | cons row rows =>
        change Routine.Obeys _ _ (match X.receiptFromStr job.receiptJson with
          | .error e => .done (.error ("deserialize receipt: " ++ e))
          | .ok receipt => settleRows receipt (row :: rows)) (SettlementPhase.selected X job (row :: rows))
        unfold SettlementPhase.selected
        cases X.receiptFromStr job.receiptJson with
        | error e => rfl
        | ok receipt => exact settleRows_obeys (row :: rows)
  apply handled.seq
  intro s result same
  subst same
  exact ⟨.close, fun _ => rfl⟩

theorem execution_obeyed (run : Runs X (World.start loop archive ttl) trace w) (k : Nat) (job : SettlementJob) :
    (executionTracking C X job).Obeyed (w.tasks (.settlement k job)) (executionPhase X k job trace) := by
  apply (executionTracking C X job).obeyed run rfl
  intro m label task begun
  cases begun with
  | execute k stored known => exact runSettlement_obeys

theorem executionPhase_step (run : Runs X (World.start loop archive ttl) trace m) (step : Step X m label n)
    (k : Nat) (job : SettlementJob) :
    executionPhase X k job (trace ++ [(m, label)]) = executionPhase X k job trace ∨
      (∃ op answer, label = .call (.settlement k job) op answer ∧ (executionPhase X k job trace).Allowed job op ∧
        executionPhase X k job (trace ++ [(m, label)]) = (executionPhase X k job trace).advance X job op answer) ∨
      label = .execute k job ∧ executionPhase X k job (trace ++ [(m, label)]) = .start := by
  rcases (executionTracking C X job).state_step (execution_obeyed run k job) step with same | called | ⟨starts, begun⟩
  · exact .inl same
  · exact .inr (.inl called)
  · refine .inr (.inr ⟨?_, begun⟩)
    cases label with
    | execute k job => cases starts; rfl
    | _ => cases starts

/-- Every call each task can make. -/
def TaskId.performs : TaskId → Call → Bool
  | .eventLoop, .putReceipt _ => true
  | .eventLoop, .insertPayment _ => true
  | .eventLoop, .trySendJob _ => true
  | .eventLoop, .sendBid _ _ => true
  | .eventLoop, .replyPublish _ _ => true
  | .eventLoop, .replyInference _ _ => true
  | .eventLoop, .panic => true
  | .eventLoop, op => op.minor
  | .forwarder, .recvJob => true
  | .forwarder, .pushRequest _ => true
  | .chat _, .newUuid => true
  | .chat _, .now => true
  | .chat _, .randomSessionKey => true
  | .chat _, .selectSessionCache _ => true
  | .chat _, .newOneshot _ => true
  | .chat _, .sendCommand _ => true
  | .chat _, .awaitPublish _ => true
  | .chat _, .collectBids _ => true
  | .chat _, .awaitInference _ => true
  | .chat _, .httpResponse _ => true
  | .settlement _ _, .selectPending _ => true
  | .settlement _ _, .settle _ _ _ => true
  | .settlement _ _, .markSubmitted _ _ => true
  | .settlement _ _, .markFailed _ => true
  | .settlement _ _, .jobResult _ _ => true
  | _, _ => false

theorem TaskId.eventLoop_performs (op : Call) (minor : op.minor) : TaskId.eventLoop.performs op = true := by
  cases op <;> first | rfl | cases minor

theorem begins_performs {id : TaskId} {task : Task Unit} (begun : Begins X m label id task) :
    task.Sat (fun op => id.performs op) (fun _ _ => True) fun _ => True := by
  cases begun with
  | serve k req =>
    refine (serveChat_obeys _ _ req).sat fun phase op allowed => ?_
    cases allowed <;> rfl
  | drop k => exact trivial
  | command command swarm =>
    exact handleCommand_calls TaskId.eventLoop_performs m.loop command swarm fun _ _ _ => rfl
  | event event =>
    exact handleEvent_calls TaskId.eventLoop_performs m.loop event (fun _ _ _ _ _ _ _ _ _ => rfl)
      (fun _ _ _ _ _ _ _ _ => ⟨rfl, fun _ => ⟨fun _ _ _ => rfl, fun _ => rfl⟩⟩) (fun _ _ _ _ _ => rfl)
      fun _ _ _ _ _ _ _ => rfl
  | forward => exact ⟨rfl, fun _ _ => ⟨rfl, fun _ _ => trivial⟩⟩
  | execute k stored known =>
    refine (runSettlement_obeys (C := C)).sat fun phase op allowed => ?_
    cases allowed <;> rfl

theorem call_performs (run : Runs X (World.start loop archive ttl) trace m) {id : TaskId} {op : Call}
    {answer : Answer op} (step : Step X m (.call id op answer) n) : id.performs op := by
  have sat : TasksSat (fun id op => id.performs op) (fun _ _ => True) m := by
    refine run.invariant (fun _ => trivial) ?_
    intro x label y _ step kept
    exact kept.step step (fun _ _ begun => begins_performs begun) fun _ _ _ _ _ _ _ => trivial
  exact sat.guaranteed step

end Coordinator
