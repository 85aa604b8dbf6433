import Pinaivu.Protocol.CanonicalBytes
import Pinaivu.Protocol.ReceiptBinding
import Pinaivu.Coordinator.InFlight

namespace Coordinator

open Protocol Crypto Async

variable {C : Primitives} {X : Externals}

/-- The receipt the handler signs for a verified ack; encoding it panics for endless payout lists. -/
def EventLoop.receiptFor (self : EventLoop C) (sender : PeerId) (ack : CompletionAck) (nowMs : UInt64) :
    Option RoutingReceipt :=
  (self.unsignedReceipt sender ack nowMs).sign C self.enclaveKey

theorem unsignedReceipt_payouts (self : EventLoop C) (sender : PeerId) (ack : CompletionAck)
    (nowMs : UInt64) : (self.unsignedReceipt sender ack nowMs).payouts =
      (computePayouts ack (self.addressesFor ack.requestId)).map fun l => ⟨l.suiAddress, l.amountNanox⟩ :=
  rfl

theorem receiptFor_eq_some {self : EventLoop C} {sender : PeerId} {ack : CompletionAck} {nowMs : UInt64}
    {receipt : RoutingReceipt} (signed : self.receiptFor sender ack nowMs = some receipt) :
    receipt.requestId = ack.requestId ∧ receipt.aggregatedOutputHash = ack.aggregatedOutputHash ∧
      receipt.payouts = (computePayouts ack (self.addressesFor ack.requestId)).map
        fun l => ⟨l.suiAddress, l.amountNanox⟩ := by
  obtain ⟨message, _, shape⟩ := RoutingReceipt.sign_eq_some signed
  rw [shape]
  exact ⟨rfl, rfl, unsignedReceipt_payouts self sender ack nowMs⟩

theorem inFlight_of_computePayouts {self : EventLoop C} {ack : CompletionAck}
    (pays : computePayouts ack (self.addressesFor ack.requestId) ≠ []) :
    (self.inFlight ack.requestId).isSome := by
  cases found : self.inFlight ack.requestId with
  | some flight => rfl
  | none =>
    rw [EventLoop.addressesFor, found] at pays
    exact absurd (computePayouts_empty ack) pays

theorem receiptFor_isSome (self : EventLoop C) (sender : PeerId) (ack : CompletionAck) (nowMs : UInt64)
    (short : ack.proofs.length < 2 ^ 31) : ∃ receipt, self.receiptFor sender ack nowMs = some receipt := by
  have bound : (self.unsignedReceipt sender ack nowMs).payouts.length < 2 ^ 31 := by
    rw [unsignedReceipt_payouts, List.length_map]
    have lines : (computePayouts ack (self.addressesFor ack.requestId)).length ≤ ack.proofs.length :=
      List.length_filterMap_le _ _
    omega
  obtain ⟨_, _, signed⟩ := RoutingReceipt.sign_isSome C self.enclaveKey _ bound
  exact ⟨_, signed⟩

theorem handleCompletionAck_stores (X : Externals) {self : EventLoop C} {sender : PeerId}
    {ack : CompletionAck} (verified : Verified C ack) (channel : Nat) {nowMs : UInt64}
    {receipt : RoutingReceipt} (signed : self.receiptFor sender ack nowMs = some receipt) :
    self.handleCompletionAck X sender ack channel nowMs =
      ({ self with inFlight := Function.update self.inFlight ack.requestId none },
        .call (.putReceipt receipt) (self.afterPut X channel (self.sessionFor ack.requestId)
          (computePayouts ack (self.addressesFor ack.requestId)) receipt)) := by
  rw [handleCompletionAck_verified verified, ← EventLoop.receiptFor, signed]
  rfl

theorem notified_stores (X : Externals) (w : World C) {sender : PeerId} {ack : CompletionAck}
    (verified : Verified C ack) (channel : Nat) {nowMs : UInt64} {receipt : RoutingReceipt}
    (signed : w.loop.receiptFor sender ack nowMs = some receipt) :
    (w.notified X (.completion sender ack channel nowMs)).tasks .eventLoop =
      .call (.putReceipt receipt) (w.loop.afterPut X channel (w.loop.sessionFor ack.requestId)
        (computePayouts ack (w.loop.addressesFor ack.requestId)) receipt) := by
  rw [World.notified, World.setTask_same, EventLoop.handleEvent,
    handleCompletionAck_stores X verified channel signed]

variable {guarantee : Call → Prop} {rely : (op : Call) → Answer op → Prop}

theorem markWarm_sat {session : SessionId} (warm : ∀ peer, guarantee (.upsertSessionCache peer session))
    (peers : List String) : (EventLoop.markWarm session peers).Sat guarantee rely fun _ => True := by
  induction peers with
  | nil => exact trivial
  | cons peer peers ih => exact ⟨warm peer, fun _ _ => ih⟩

theorem warmNodes_sat (self : EventLoop C) (session : Option SessionId) (receipt : RoutingReceipt)
    (warm : ∀ peer session, guarantee (.upsertSessionCache peer session)) :
    (self.warmNodes session receipt).Sat guarantee rely fun _ => True := by
  unfold EventLoop.warmNodes
  split
  · exact markWarm_sat (fun peer => warm peer _) _
  · exact trivial

theorem insertPending_sat {requestId : RequestId} (uuid : guarantee .newUuid) (lines : List PayoutLine)
    (rows : ∀ id, ∀ line ∈ lines, guarantee (.insertPayment (line.row id requestId))) :
    (insertPending requestId lines).Sat guarantee rely fun _ => True := by
  induction lines with
  | nil => exact trivial
  | cons line lines ih =>
    refine ⟨uuid, fun id _ => ⟨rows id line (by simp), ?_⟩⟩
    intro answer _
    cases answer with
    | error e => exact trivial
    | ok => exact ih fun id other member => rows id other (List.mem_cons_of_mem _ member)

theorem queuePayments_sat (self : EventLoop C) (receipt : RoutingReceipt) (payoutLines : List PayoutLine)
    (uuid : guarantee .newUuid)
    (rows : ∀ id, ∀ line ∈ payoutLines, guarantee (.insertPayment (line.row id receipt.requestId)))
    (job : payoutLines ≠ [] → guarantee (.trySendJob ⟨receipt.requestId, X.receiptToString receipt⟩)) :
    (self.queuePayments X receipt payoutLines).Sat guarantee rely fun _ => True := by
  unfold EventLoop.queuePayments
  split
  · rename_i payable
    have some : payoutLines ≠ [] := by
      intro same
      subst same
      simp at payable
    apply Routine.Sat.seq (insertPending_sat uuid payoutLines rows)
    intro answer _
    cases answer with
    | error e => exact trivial
    | ok =>
      change (self.enqueueSettlement X receipt).Sat guarantee rely _
      unfold EventLoop.enqueueSettlement
      split
      · exact ⟨job some, fun _ _ => trivial⟩
      · exact trivial
  · exact trivial

/-- Behind a stored receipt the handler only warms nodes, inserts the ack's rows, offers one job and
    answers with the receipt. -/
theorem afterPut_sat (X : Externals) (self : EventLoop C) (channel : Nat) (session : Option SessionId)
    (payoutLines : List PayoutLine) (receipt : RoutingReceipt)
    (warm : ∀ peer session, guarantee (.upsertSessionCache peer session)) (uuid : guarantee .newUuid)
    (rows : ∀ id, ∀ line ∈ payoutLines, guarantee (.insertPayment (line.row id receipt.requestId)))
    (job : payoutLines ≠ [] → guarantee (.trySendJob ⟨receipt.requestId, X.receiptToString receipt⟩))
    (answer : guarantee (.sendResponse channel (.ok receipt))) :
    (self.afterPut X channel session payoutLines receipt (.ok ())).Sat guarantee rely fun _ => True := by
  apply Routine.Sat.seq (warmNodes_sat self session receipt warm)
  intro _ _
  apply Routine.Sat.seq (queuePayments_sat self receipt payoutLines uuid rows job)
  intro _ _
  exact ⟨answer, fun _ _ => trivial⟩

theorem afterPut_noPool {self : EventLoop C} (noPool : self.pgPool = false) (channel : Nat)
    (session : Option SessionId) (payoutLines : List PayoutLine) (receipt : RoutingReceipt) :
    self.afterPut X channel session payoutLines receipt (.ok ()) =
      .call (.sendResponse channel (.ok receipt)) .done := by
  simp [EventLoop.afterPut, EventLoop.warmNodes, EventLoop.queuePayments, noPool]
  rfl

theorem reach_accepted (X : Externals) (w : World C) (idle : w.tasks .eventLoop = .done ())
    (noPool : w.loop.pgPool = false) {ack : CompletionAck} (verified : Verified C ack) {sender : PeerId}
    (channel : Nat) {nowMs : UInt64} {receipt : RoutingReceipt}
    (signed : w.loop.receiptFor sender ack nowMs = some receipt) :
    ∃ trace w', Runs X w ((w, .event (.completion sender ack channel nowMs)) :: trace) w' ∧
      (∀ step ∈ trace, step.2.quiet) ∧ publishedIds trace = [] ∧
      (∃ m, (m, Label.call .eventLoop (.sendResponse channel (.ok receipt)) ()) ∈ trace) ∧
      w'.tasks .eventLoop = .done () ∧ w'.commands = w.commands ∧
      w'.loop = { w.loop with inFlight := Function.update w.loop.inFlight ack.requestId none } ∧
      ((∀ step ∈ trace, ∃ op answer, step.2 = .call .eventLoop op answer) ∧
        ∀ id, id ≠ .eventLoop → w'.tasks id = w.tasks id) ∧ w'.archive = w.archive.put X receipt := by
  let taken := w.notified X (.completion sender ack channel nowMs)
  have putting := notified_stores X w verified channel signed
  let stored : World C := { taken with archive := taken.archive.put X receipt }.setTask .eventLoop
    (w.loop.afterPut X channel (w.loop.sessionFor ack.requestId)
      (computePayouts ack (w.loop.addressesFor ack.requestId)) receipt (.ok ()))
  have answering : stored.tasks .eventLoop = .call (.sendResponse channel (.ok receipt)) .done := by
    simp only [stored, World.setTask, Function.update_self, afterPut_noPool noPool]
  have first : Step X w (.event (.completion sender ack channel nowMs)) taken := .event idle
  have second : Step X taken (.call .eventLoop (.putReceipt receipt) (.ok ())) stored :=
    .call putting rfl
  have third : Step X stored (.call .eventLoop (.sendResponse channel (.ok receipt)) ())
      (stored.setTask .eventLoop (.done ())) := .call answering rfl
  refine ⟨_, _, .cons first (.cons second (.one third)), ?_, rfl, ⟨stored, by simp⟩, ?_, rfl, ?_, ⟨?_, ?_⟩, rfl⟩
  · intro step member
    simp only [List.mem_cons, List.not_mem_nil, or_false] at member
    rcases member with rfl | rfl <;> rfl
  · simp [World.setTask]
  · change (w.loop.handleCompletionAck X sender ack channel nowMs).1 = _
    rw [handleCompletionAck_loop, if_pos verified]
  · intro step member
    simp only [List.mem_cons, List.not_mem_nil, or_false] at member
    rcases member with rfl | rfl <;> exact ⟨_, _, rfl⟩
  · intro id other
    simp only [stored, taken, World.notified, World.setTask, Function.update_of_ne other]

theorem verified_of_signed (correct : C.Correct) (key : C.SigningKey) (ack : CompletionAck)
    (proofs : ∀ p ∈ ack.proofs, p.verify C = .ok ()) : Verified C (ack.sign C key) :=
  ⟨ack.verifyPrimary_sign correct key, ((ack.sign C key).verifyAllProofs_ok_iff C).mpr proofs⟩

def sampleRequest : InferenceRequest :=
  ⟨⟨Vector.replicate 16 0⟩, ⟨Vector.replicate 16 0⟩, "qwen-72b", .standard, .new⟩

def sampleAddresses : PayoutAddresses := fun peer =>
  if peer = "12D3KooWPeerNode1" then some "0x0abc" else none

def paidAck (C : Primitives) (key : C.SigningKey) : CompletionAck :=
  CompletionAck.sign C key
    ⟨sampleRequest.requestId, [sampleProof.sign C key], Vector.replicate 32 9, Vector.replicate 32 0, []⟩

theorem paidAck_verified (correct : C.Correct) (key : C.SigningKey) : Verified C (paidAck C key) := by
  apply verified_of_signed correct
  simp only [List.mem_singleton, forall_eq]
  exact ProofOfInference.verify_sign correct key sampleProof

theorem reach_sample (X : Externals) (C : Primitives) (key : C.SigningKey) (pgPool settlementTx : Bool)
    (archive : ReceiptArchive) :
    ∃ trace w, Runs X (World.start (EventLoop.new key pgPool settlementTx) archive 60000) trace w ∧
      w.tasks .eventLoop = .done () ∧ w.commands = [] ∧ w.loop.pgPool = pgPool ∧
      publishedIds trace = [sampleRequest.requestId] ∧
      (∀ step ∈ trace, step.2.quiet) ∧
      w.loop.inFlight sampleRequest.requestId = some (flightOf sampleRequest sampleAddresses) ∧
      (∀ id, id ≠ .eventLoop → w.tasks id = .done ()) ∧ (∀ step ∈ trace, step.2.mishap = false) ∧
      SameStores (World.start (EventLoop.new key pgPool settlementTx) archive 60000) w := by
  obtain ⟨trace, w, run, idle, drained, flight, published, quiet, others, smooth, stores⟩ :=
    reach_inFlight X (World.start (EventLoop.new key pgPool settlementTx) archive 60000) rfl rfl
      sampleRequest ⟨sampleRequest.requestId, 0⟩ sampleAddresses
  refine ⟨trace, w, run, idle, drained, stores.pgPool, published, quiet, ?_, others, smooth, stores⟩
  rw [flight, Function.update_self]

end Coordinator
