import Mathlib.Data.List.Forall2
import Pinaivu.Coordinator.Finality
import Pinaivu.Coordinator.LoopTurns

namespace Coordinator

open Protocol Crypto Async

variable {C : Primitives} {X : Externals}

structure TakenAck (C : Primitives) where
  loop : EventLoop C
  sender : PeerId
  ack : CompletionAck
  channel : Nat
  nowMs : UInt64

def TakenAck.refusal (a : TakenAck C) : Option String :=
  match a.ack.verifyPrimary C with
  | .error e => some ("primary signature invalid: " ++ e.message)
  | .ok () =>
    match a.ack.verifyAllProofs C with
    | .error e => some ("proof invalid: " ++ e.message)
    | .ok () => none

def TakenAck.receipt (a : TakenAck C) : Option RoutingReceipt := a.loop.receiptFor a.sender a.ack a.nowMs

theorem TakenAck.verified_of_refusal {a : TakenAck C} (accepted : a.refusal = none) : Verified C a.ack := by
  unfold refusal at accepted
  split at accepted
  · cases accepted
  · rename_i primary
    split at accepted
    · cases accepted
    · rename_i proofs
      exact ⟨primary, proofs⟩

/-- The answers to an ack: it does not verify, its receipt cannot be stored, or it is accepted. -/
inductive TakenAck.Answered (a : TakenAck C) : Nat × CompletionResponse → Prop where
  | refused {reason : String} (refusal : a.refusal = some reason) : a.Answered (a.channel, .rejected reason)
  | unstored (accepted : a.refusal = none) : a.Answered (a.channel, .rejected "storage error")
  | stored {receipt : RoutingReceipt} (accepted : a.refusal = none) (signed : a.receipt = some receipt) :
      a.Answered (a.channel, .ok receipt)

def TakenAck.session (a : TakenAck C) : Option SessionId := a.loop.sessionFor a.ack.requestId

def TakenAck.lines (a : TakenAck C) : List PayoutLine := computePayouts a.ack (a.loop.addressesFor a.ack.requestId)

def takenAck (m : World C) : Label → Option (TakenAck C)
  | .event (.completion sender ack channel nowMs) => some ⟨m.loop, sender, ack, channel, nowMs⟩
  | _ => none

def Turn.ack (turn : Turn C) : Option (TakenAck C) := takenAck turn.world turn.label

theorem Turn.ack_loop {turn : Turn C} {a : TakenAck C} (taken : turn.ack = some a) : a.loop = turn.world.loop := by
  obtain ⟨world, label, calls⟩ := turn
  cases label with
  | event event =>
    cases event with
    | completion sender ack channel nowMs =>
      cases taken
      rfl
    | _ => cases taken
  | _ => cases taken

/-- What handling an ack can leave behind, its response among it. -/
inductive Record where
  | receipt
  | warmth
  | row
  | job
  | response

def Call.record : Call → Option Record
  | .putReceipt _ => some .receipt
  | .upsertSessionCache _ _ => some .warmth
  | .insertPayment _ => some .row
  | .trySendJob _ => some .job
  | .sendResponse _ _ => some .response
  | _ => none

/-- The calls the handler of an ack makes, from the first to the last. -/
inductive TakenAck.Handled (X : Externals) (a : TakenAck C) : List (Σ op, Answer op) → Prop where
  | refused {reason : String} (refusal : a.refusal = some reason) :
      a.Handled X [⟨.sendResponse a.channel (.rejected reason), ()⟩]
  | unstored {receipt : RoutingReceipt} {e : String} (accepted : a.refusal = none) (signed : a.receipt = some receipt) :
      a.Handled X [⟨.putReceipt receipt, .error e⟩, ⟨.sendResponse a.channel (.rejected "storage error"), ()⟩]
  | stored {receipt : RoutingReceipt} {warm pay : List (Σ op, Answer op)} (accepted : a.refusal = none)
      (signed : a.receipt = some receipt) (warming : (a.loop.warmNodes a.session receipt).Follows warm (.done ()))
      (paying : (a.loop.queuePayments X receipt a.lines).Follows pay (.done ())) :
      a.Handled X (⟨.putReceipt receipt, .ok ()⟩ :: (warm ++ (pay ++ [⟨.sendResponse a.channel (.ok receipt), ()⟩])))

theorem handleCompletionAck_refused {a : TakenAck C} {reason : String} (refused : a.refusal = some reason) :
    (a.loop.handleCompletionAck X a.sender a.ack a.channel a.nowMs).2 =
      call (.sendResponse a.channel (.rejected reason)) := by
  unfold TakenAck.refusal at refused
  unfold EventLoop.handleCompletionAck
  cases primary : a.ack.verifyPrimary C with
  | error e =>
    rw [primary] at refused
    cases refused
    rfl
  | ok =>
    rw [primary] at refused
    cases proofs : a.ack.verifyAllProofs C with
    | error e =>
      rw [proofs] at refused
      cases refused
      rfl
    | ok =>
      rw [proofs] at refused
      cases refused

theorem handleCompletionAck_handled {a : TakenAck C} {calls : List (Σ op, Answer op)}
    (path : (a.loop.handleCompletionAck X a.sender a.ack a.channel a.nowMs).2.Follows calls (.done ())) :
    a.Handled X calls := by
  cases refused : a.refusal with
  | some reason =>
    rw [handleCompletionAck_refused refused] at path
    obtain ⟨answer, rest, rfl, last⟩ := path.call_done
    cases last
    exact .refused refused
  | none =>
    have verified := TakenAck.verified_of_refusal refused
    cases signed : a.loop.receiptFor a.sender a.ack a.nowMs with
    | none =>
      rw [handleCompletionAck_verified verified, ← EventLoop.receiptFor, signed] at path
      obtain ⟨answer, _⟩ := path.call_done
      exact answer.elim
    | some receipt =>
      rw [handleCompletionAck_stores X verified a.channel signed] at path
      replace path := path.call_done
      obtain ⟨stored, rest, rfl, path⟩ := path
      cases stored with
      | error e =>
        obtain ⟨answer, rest, rfl, last⟩ := path.call_done
        cases last
        exact .unstored refused signed
      | ok =>
        replace path := Routine.Follows.seq_done path
        obtain ⟨warm, rest, _, rfl, warming, path⟩ := path
        replace path := Routine.Follows.seq_done path
        obtain ⟨pay, rest, _, rfl, paying, path⟩ := path
        obtain ⟨answer, rest, rfl, last⟩ := path.call_done
        cases last
        exact .stored refused signed warming paying

theorem handleCommand_unrecorded (self : EventLoop C) (command : MeshCommand) (swarm : SwarmAnswers) :
    (self.handleCommand command swarm).2.Sat (fun op => op.record = none) (fun _ _ => True) fun _ => True := by
  cases command with
  | setPayoutAddresses requestId addresses =>
    simp only [EventLoop.handleCommand]
    split <;> exact trivial
  | dispatchInference peer dispatch tx => exact trivial
  | _ => exact ⟨rfl, fun _ _ => trivial⟩

theorem handleGossipMessage_unrecorded (self : EventLoop C) (message : GossipMessage) (nowMs : UInt64) :
    (self.handleGossipMessage X message nowMs).Sat (fun op => op.record = none) (fun _ _ => True) fun _ => True := by
  unfold EventLoop.handleGossipMessage
  split
  · split
    · split
      · exact ⟨rfl, fun _ _ => trivial⟩
      · exact trivial
    · exact trivial
  · split
    · split
      · split
        · exact ⟨rfl, fun _ _ => trivial⟩
        · exact trivial
      · exact trivial
    · exact trivial

theorem addAddresses_unrecorded (peer : PeerId) (addrs : List Multiaddr) :
    (EventLoop.addAddresses peer addrs).Sat (fun op => op.record = none) (fun _ _ => True) fun _ => True := by
  induction addrs with
  | nil => exact trivial
  | cons addr addrs ih => exact ⟨rfl, fun _ _ => ih⟩

theorem handleEvent_unrecorded (self : EventLoop C) (event : Event)
    (other : ∀ sender ack channel nowMs, event ≠ .completion sender ack channel nowMs) :
    (self.handleEvent X event).2.Sat (fun op => op.record = none) (fun _ _ => True) fun _ => True := by
  cases event with
  | newListenAddr address => exact trivial
  | gossip source message nowMs => exact handleGossipMessage_unrecorded self message nowMs
  | completion sender ack channel nowMs => exact absurd rfl (other sender ack channel nowMs)
  | inferenceResponse outId response => exact replyInference_sat self outId _ fun _ _ => rfl
  | inferenceFailure outId error => exact replyInference_sat self outId _ fun _ _ => rfl
  | identify peer addrs => exact ⟨rfl, fun _ _ => addAddresses_unrecorded peer addrs⟩
  | routingUpdated peer addresses => exact ⟨rfl, fun _ _ => trivial⟩
  | evictTick nowMs => exact ⟨rfl, fun _ _ => trivial⟩

theorem Turn.recorded {turn : Turn C} (whole : turn.Leaves X (.done ())) :
    (∃ a, turn.ack = some a ∧ a.Handled X turn.calls) ∨
      turn.ack = none ∧ ∀ made ∈ turn.calls, made.1.record = none := by
  obtain ⟨world, label, calls⟩ := turn
  obtain ⟨begun, begins, path⟩ := whole
  cases begins with
  | command command swarm => exact .inr ⟨rfl, path.sat (handleCommand_unrecorded world.loop command swarm)⟩
  | event event =>
    cases event with
    | completion sender ack channel nowMs =>
      exact .inl ⟨⟨world.loop, sender, ack, channel, nowMs⟩, rfl, handleCompletionAck_handled path⟩
    | _ => exact .inr ⟨rfl, path.sat (handleEvent_unrecorded world.loop _ fun _ _ _ _ => nofun)⟩

def responded : (Σ op, Answer op) → Option (Nat × CompletionResponse)
  | ⟨.sendResponse channel response, _⟩ => some (channel, response)
  | _ => none

def archived : (Σ op, Answer op) → Option RoutingReceipt
  | ⟨.putReceipt receipt, .ok ()⟩ => some receipt
  | _ => none

def takenAcks (trace : List (World C × Label)) : List (TakenAck C) :=
  trace.filterMap fun step => takenAck step.1 step.2

def responses (trace : List (World C × Label)) : List (Nat × CompletionResponse) :=
  (callsMade trace).filterMap responded

/-- The receipts stored, in the order they were stored. -/
def archivedReceipts (trace : List (World C × Label)) : List RoutingReceipt := (callsMade trace).filterMap archived

variable {loop : EventLoop C} {archive : ReceiptArchive} {ttl : UInt64} {w m n : World C}
  {trace : List (World C × Label)} {label : Label}

def Reads {β : Type} (kind : (Σ op, Answer op) → Option β) (record : Record) : Prop :=
  ∀ op answer, op.record ≠ some record → kind ⟨op, answer⟩ = none

theorem responded_reads : Reads responded .response := by
  intro op answer other
  cases op with
  | sendResponse channel response => exact absurd rfl other
  | _ => rfl

theorem archived_reads : Reads archived .receipt := by
  intro op answer other
  cases op with
  | putReceipt receipt => exact absurd rfl other
  | _ => rfl

variable {β : Type} {kind : (Σ op, Answer op) → Option β} {record : Record} {calls : List (Σ op, Answer op)}

theorem Reads.nothing (reads : Reads kind record) (other : ∀ made ∈ calls, made.1.record ≠ some record) :
    calls.filterMap kind = [] := by
  apply List.filterMap_eq_nil_iff.mpr
  intro made member
  exact reads made.1 made.2 (other made member)

theorem Reads.quiet (reads : Reads kind record) (quiet : ∀ made ∈ calls, made.1.record = none) :
    calls.filterMap kind = [] := by
  apply reads.nothing
  intro made member
  rw [quiet made member]
  exact nofun

theorem Reads.unwarmed (reads : Reads kind record) (apart : record ≠ .warmth) {self : EventLoop C}
    {session : Option SessionId} {receipt : RoutingReceipt}
    (path : (self.warmNodes session receipt).Follows calls (.done ())) : calls.filterMap kind = [] := by
  have sat : (self.warmNodes session receipt).Sat (fun op => op.record ≠ some record) (fun _ _ => True)
      fun _ => True := warmNodes_sat self session receipt fun _ _ same => apart (Option.some.inj same).symm
  exact reads.nothing (path.sat sat)

theorem Reads.unbooked (reads : Reads kind record) (row : record ≠ .row) (job : record ≠ .job) {self : EventLoop C}
    {receipt : RoutingReceipt} {lines : List PayoutLine}
    (path : (self.queuePayments X receipt lines).Follows calls (.done ())) : calls.filterMap kind = [] := by
  have sat : (self.queuePayments X receipt lines).Sat (fun op => op.record ≠ some record) (fun _ _ => True)
      fun _ => True := queuePayments_sat self receipt lines nofun
    (fun _ _ _ same => row (Option.some.inj same).symm) fun _ same => job (Option.some.inj same).symm
  exact reads.nothing (path.sat sat)

theorem Reads.accepted (reads : Reads kind record) (apart : record ≠ .warmth) {self : EventLoop C}
    {session : Option SessionId} {receipt : RoutingReceipt} {warm : List (Σ op, Answer op)}
    (warming : (self.warmNodes session receipt).Follows warm (.done ())) (put answer : Σ op, Answer op)
    (pay : List (Σ op, Answer op)) : (put :: (warm ++ (pay ++ [answer]))).filterMap kind =
      (kind put).toList ++ (pay.filterMap kind ++ (kind answer).toList) := by
  rw [← List.singleton_append, List.filterMap_append, List.filterMap_append, List.filterMap_append,
    reads.unwarmed apart warming, List.nil_append]
  cases first : kind put <;> cases last : kind answer <;> simp [first, last]

theorem records_own {id : TaskId} {op : Call} (performs : id.performs op = true) (records : op.record ≠ none) :
    id = .eventLoop := by
  cases op with
  | putReceipt receipt => cases id <;> first | rfl | cases performs
  | upsertSessionCache peer session => cases id <;> first | rfl | cases performs
  | insertPayment row => cases id <;> first | rfl | cases performs
  | trySendJob job => cases id <;> first | rfl | cases performs
  | sendResponse channel response => cases id <;> first | rfl | cases performs
  | _ => exact absurd rfl records

theorem recorded_turns (run : Runs X (World.start loop archive ttl) trace w) (idle : w.tasks .eventLoop = .done ()) :
    ∃ turns : List (Turn C), (∀ turn ∈ turns, turn.Leaves X (.done ()) ∧ (turn.world, turn.label) ∈ trace ∧
        turn.calls ⊆ callsMade trace) ∧
      takenAcks trace = turns.filterMap Turn.ack ∧
      ∀ (β : Type) (kind : (Σ op, Answer op) → Option β) (record : Record), Reads kind record →
        (callsMade trace).filterMap kind = turns.flatMap fun turn => turn.calls.filterMap kind := by
  obtain ⟨turns, whole, taken, calls⟩ := idle_turns run idle
  refine ⟨turns, fun turn member => ⟨whole turn member, ?_, fun made inside => ?_⟩, ?_, fun β kind record reads => ?_⟩
  · have started : (turn.world, turn.label) ∈ trace.filter (·.2.starts = some .eventLoop) := by
      rw [← taken]
      exact List.mem_map.mpr ⟨turn, member, rfl⟩
    exact List.mem_of_mem_filter started
  · have own : made ∈ callsBy .eventLoop trace := by
      rw [← calls]
      exact List.mem_flatMap.mpr ⟨turn, member, inside⟩
    obtain ⟨m, step⟩ := mem_callsBy own
    exact List.mem_filterMap.mpr ⟨_, step, rfl⟩
  · have loops (step : World C × Label) : takenAck step.1 step.2 =
        if step.2.starts = some .eventLoop then takenAck step.1 step.2 else none := by
      obtain ⟨m, label⟩ := step
      cases label with
      | event event => rfl
      | _ => exact (ite_self _).symm
    calc takenAcks trace
      _ = (trace.filter (·.2.starts = some .eventLoop)).filterMap fun step => takenAck step.1 step.2 := by
          simp only [takenAcks, List.filterMap_filter, decide_eq_true_eq, ← loops]
      _ = turns.filterMap Turn.ack := by
          rw [← taken, List.filterMap_map]
          rfl
  · have own : (callsMade trace).filterMap kind = (callsBy .eventLoop trace).filterMap kind := by
      refine callsMade_own run fun id op answer performs some => records_own performs ?_
      intro quiet
      exact some (reads op answer (by simp [quiet]))
    rw [own, ← calls, List.filterMap_flatMap]

theorem TakenAck.Handled.answers {a : TakenAck C} {calls : List (Σ op, Answer op)} (handled : a.Handled X calls) :
    ∃ answer, calls.filterMap responded = [answer] ∧ a.Answered answer ∧
      calls.filterMap archived = answer.2.routingReceipt.toList := by
  cases handled with
  | refused refusal => exact ⟨_, rfl, .refused refusal, rfl⟩
  | unstored accepted signed => exact ⟨_, rfl, .unstored accepted, rfl⟩
  | @stored receipt warm pay accepted signed warming paying =>
    refine ⟨(a.channel, .ok receipt), ?_, .stored accepted signed, ?_⟩
    · rw [responded_reads.accepted nofun warming, responded_reads.unbooked nofun nofun paying]
      rfl
    · rw [archived_reads.accepted nofun warming, archived_reads.unbooked nofun nofun paying]
      rfl

theorem answered_of_idle (run : Runs X (World.start loop archive ttl) trace w) (idle : w.tasks .eventLoop = .done ()) :
    List.Forall₂ TakenAck.Answered (takenAcks trace) (responses trace) ∧
      (responses trace).filterMap (·.2.routingReceipt) = archivedReceipts trace := by
  obtain ⟨turns, whole, taken, recorded⟩ := recorded_turns run idle
  rw [taken, responses, archivedReceipts, recorded _ _ _ responded_reads,
    recorded _ _ _ archived_reads]
  clear taken recorded
  induction turns with
  | nil => exact ⟨.nil, rfl⟩
  | cons turn turns ih =>
    obtain ⟨answered, stored⟩ := ih fun other member => whole other (List.mem_cons_of_mem _ member)
    rcases Turn.recorded (whole turn List.mem_cons_self).1 with ⟨a, taken, handled⟩ | ⟨taken, quiet⟩
    · obtain ⟨answer, once, right, kept⟩ := handled.answers
      rw [List.filterMap_cons_some taken, List.flatMap_cons, List.flatMap_cons, once, kept, ← stored]
      refine ⟨.cons right answered, ?_⟩
      cases found : answer.2.routingReceipt <;> simp [found]
    · rw [List.filterMap_cons_none taken, List.flatMap_cons, List.flatMap_cons, responded_reads.quiet quiet,
        archived_reads.quiet quiet]
      exact ⟨answered, stored⟩

/-- Every ack taken up is answered once, in turn and on its own channel, and an ack is accepted exactly
    when its receipt has been stored. -/
theorem acks_answered_in_order (X : Externals) (loop : EventLoop C) (archive : ReceiptArchive) (ttl : UInt64)
    (w : World C) (trace : List (World C × Label)) (run : Runs X (World.start loop archive ttl) trace w)
    (idle : w.tasks .eventLoop = .done ()) :
    List.Forall₂ TakenAck.Answered (takenAcks trace) (responses trace) ∧
      (responses trace).filterMap (·.2.routingReceipt) = archivedReceipts trace := answered_of_idle run idle

theorem reach_answered (X : Externals) (C : Primitives) (correct : C.Correct) (key : C.SigningKey) :
    ∃ trace w receipt, Runs X (World.start (EventLoop.new key false false) (.inMemory fun _ => none) 60000) trace w ∧
      w.tasks .eventLoop = .done () ∧ receipt.requestId = sampleRequest.requestId ∧
      (7, CompletionResponse.ok receipt) ∈ responses trace := by
  obtain ⟨before, m, first, idle, _, noPool, _⟩ := reach_sample X C key false false (.inMemory fun _ => none)
  have one : (paidAck C key).proofs.length < 2 ^ 31 := show 1 < 2 ^ 31 by decide
  obtain ⟨receipt, signed⟩ := receiptFor_isSome m.loop ⟨"12D3KooWPeerNode1"⟩ (paidAck C key) 1700000010000 one
  obtain ⟨after, w, accept, _, _, ⟨x, responded⟩, idle', _⟩ :=
    reach_accepted X m idle noPool (paidAck_verified correct key) 7 signed
  refine ⟨_, w, receipt, first.append accept, idle', (receiptFor_eq_some signed).1, ?_⟩
  apply List.mem_filterMap.mpr
  refine ⟨⟨.sendResponse 7 (.ok receipt), ()⟩, List.mem_filterMap.mpr ?_, rfl⟩
  exact ⟨_, List.mem_append_right _ (List.mem_cons_of_mem _ responded), rfl⟩

theorem sample_ack_answered :
    let C := Primitives.marking []
    let X := Externals.serde (fun _ => none) fun text => .ok ⟨text⟩
    ∃ (trace : List (World C × Label)) (w : World C) (receipt : RoutingReceipt),
      Runs X (World.start (EventLoop.new (Vector.replicate 32 0) false false) (.inMemory fun _ => none) 60000) trace w ∧
      (7, CompletionResponse.ok receipt) ∈ responses trace ∧
      List.Forall₂ TakenAck.Answered (takenAcks trace) (responses trace) ∧ receipt ∈ archivedReceipts trace := by
  intro C X
  obtain ⟨trace, w, receipt, run, idle, _, responded⟩ :=
    reach_answered X C (Primitives.marking_correct _) (Vector.replicate 32 0)
  obtain ⟨answered, stored⟩ := acks_answered_in_order X _ _ _ w trace run idle
  refine ⟨trace, w, receipt, run, responded, answered, ?_⟩
  rw [← stored]
  exact List.mem_filterMap.mpr ⟨_, responded, rfl⟩

inductive ProofError where
  | notFound
  | internal (message : String)
  deriving DecidableEq

/-- `GET /v1/proofs/{request_id}`, from what the archive lookup returned. -/
def getProof : Except String (Option RoutingReceipt) → Except ProofError RoutingReceipt
  | .error e => .error (.internal ("archive lookup: " ++ e))
  | .ok none => .error .notFound
  | .ok (some receipt) => .ok receipt

def lastFor (r : RequestId) (receipts : List RoutingReceipt) : Option RoutingReceipt :=
  (receipts.filter (·.requestId = r)).getLast?

theorem lastFor_snoc (r : RequestId) (receipts : List RoutingReceipt) (receipt : RoutingReceipt) :
    lastFor r (receipts ++ [receipt]) = if receipt.requestId = r then some receipt else lastFor r receipts := by
  unfold lastFor
  rw [List.filter_append]
  split
  · rename_i own
    simp [own]
  · rename_i other
    simp [other]

theorem step_archives (step : Step X m label n) :
    n.archive = (label.called.bind archived).elim m.archive fun receipt => m.archive.put X receipt := by
  cases step with
  | cancel k => exact (dropChat_keeps m k).2.2.1
  | @call w'' id op next answer waiting answered =>
    change w''.archive = _
    cases performed answered with
    | silent quiet =>
      cases op with
      | putReceipt receipt =>
        cases answer with
        | ok => cases quiet
        | error e => rfl
      | _ => rfl
    | _ => rfl
  | _ => rfl

theorem archive_serves_last (faithful : X.RoundTrip) (empty : ∀ r, archive.get X r = .ok none)
    (run : Runs X (World.start loop archive ttl) trace w) (r : RequestId) :
    w.archive.get X r = .ok (lastFor r (archivedReceipts trace)) := by
  refine run.history (I := fun trace w => w.archive.get X r = .ok (lastFor r (archivedReceipts trace))) (empty r) ?_
  intro before m label n _ _ step kept
  have grown : archivedReceipts (before ++ [(m, label)]) =
      archivedReceipts before ++ (label.called.bind archived).toList := by
    rw [archivedReceipts, callsMade_snoc, List.filterMap_append]
    cases called : label.called with
    | none => rfl
    | some made => cases found : archived made <;> simp [found, archivedReceipts]
  rw [step_archives step, grown]
  cases label.called.bind archived with
  | none => simpa using kept
  | some receipt =>
    rw [Option.toList_some, lastFor_snoc, Option.elim_some]
    split
    · rename_i own
      subst own
      exact ReceiptArchive.get_put_same faithful receipt m.archive
    · rename_i other
      rw [ReceiptArchive.get_put_other receipt m.archive fun same => other same.symm]
      exact kept

/-- `get_proof` serves the receipt of the last ack accepted for the request, and nothing else: until one
    is accepted the request is not found. Where the database fails it says so. -/
theorem proofs_serve_last_accepted (X : Externals) (faithful : X.RoundTrip) (loop : EventLoop C)
    (archive : ReceiptArchive) (empty : ∀ r, archive.get X r = .ok none) (ttl : UInt64) (w : World C)
    (trace : List (World C × Label)) (run : Runs X (World.start loop archive ttl) trace w)
    (idle : w.tasks .eventLoop = .done ()) (r : RequestId) (selected : Except String Unit) :
    (w.archive.mayFail = false ∨ selected = .ok () → getProof (w.archive.lookup X r selected) =
        (lastFor r ((responses trace).filterMap (·.2.routingReceipt))).elim (.error .notFound) .ok) ∧
      (w.archive.mayFail = true → ∀ e, selected = .error e →
        getProof (w.archive.lookup X r selected) = .error (.internal ("archive lookup: " ++ e))) := by
  constructor
  · intro answered
    have found : w.archive.lookup X r selected = w.archive.get X r := by
      unfold ReceiptArchive.lookup
      split
      · rename_i fails
        rcases answered with never | fine
        · rw [fails] at never
          cases never
        · cases fine
      · rfl
    rw [found, archive_serves_last faithful empty run r, (answered_of_idle run idle).2]
    cases lastFor r (archivedReceipts trace) <;> rfl
  · intro fails e failed
    unfold ReceiptArchive.lookup
    rw [fails, failed]
    rfl

theorem lastFor_of_mem {receipts : List RoutingReceipt} {receipt : RoutingReceipt} (member : receipt ∈ receipts) :
    ∃ last, lastFor receipt.requestId receipts = some last := by
  have some : receipts.filter (·.requestId = receipt.requestId) ≠ [] := by
    apply List.ne_nil_of_mem
    exact List.mem_filter.mpr ⟨member, by simp⟩
  exact ⟨_, List.getLast?_eq_some_getLast some⟩

theorem sample_proof_served :
    let C := Primitives.marking []
    let X := Externals.serde (fun _ => none) fun text => .ok ⟨text⟩
    ∃ (trace : List (World C × Label)) (w : World C) (receipt : RoutingReceipt),
      Runs X (World.start (EventLoop.new (Vector.replicate 32 0) false false) (.inMemory fun _ => none) 60000) trace w ∧
      getProof (w.archive.lookup X sampleRequest.requestId (.ok ())) = .ok receipt := by
  intro C X
  obtain ⟨trace, w, receipt, run, idle, own, responded⟩ :=
    reach_answered X C (Primitives.marking_correct _) (Vector.replicate 32 0)
  have served := (proofs_serve_last_accepted X (Externals.serde_roundTrip _ _) _ _ (fun _ => rfl) _ w trace run idle
    sampleRequest.requestId (.ok ())).1 (.inr rfl)
  have given : receipt ∈ (responses trace).filterMap (·.2.routingReceipt) := List.mem_filterMap.mpr ⟨_, responded, rfl⟩
  obtain ⟨last, found⟩ := lastFor_of_mem given
  rw [own] at found
  rw [found] at served
  exact ⟨trace, w, last, run, served⟩

end Coordinator
