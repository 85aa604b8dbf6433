import Pinaivu.Coordinator.Finality
import Pinaivu.Coordinator.PayoutOrder

namespace Coordinator

open Protocol Crypto Async

variable {C : Primitives} {X : Externals} {loop : EventLoop C} {archive : ReceiptArchive} {ttl : UInt64}
  {w : World C} {trace : List (World C × Label)}

/-- A signed receipt goes to the archive at once: it was put there, or its put is under way. -/
def Signed (trace : List (World C × Label)) (w : World C) (receipt : RoutingReceipt) : Prop :=
  (∃ m id answer, (m, Label.call id (.putReceipt receipt) answer) ∈ trace) ∨
    ∃ id next, w.tasks id = .call (.putReceipt receipt) next

def totalPaid (receipt : RoutingReceipt) : Nat :=
  (receipt.payouts.map fun payout => payout.amountNanox.toNat).sum

def totalDeclared (ack : CompletionAck) (addresses : PayoutAddresses) : Nat :=
  ((paidProofs ack addresses).map fun proof => proof.pricePaidNanox.value.toNat).sum

theorem receiptFor_total {self : EventLoop C} {sender : PeerId} {ack : CompletionAck} {nowMs : UInt64}
    {receipt : RoutingReceipt} (signed : self.receiptFor sender ack nowMs = some receipt) :
    totalPaid receipt = totalDeclared ack (self.addressesFor ack.requestId) := by
  obtain ⟨_, _, payouts⟩ := receiptFor_eq_some signed
  unfold totalPaid totalDeclared
  rw [payouts, computePayouts_eq_map, List.map_map, List.map_map]
  rfl

theorem putsFromAck_tasks (run : Runs X (World.start loop archive ttl) trace w) :
    TasksSat (fun _ => putsFromAck trace) (fun _ _ => True) w := by
  refine run.invariant (fun _ => trivial) ?_
  intro m label n member step kept
  exact kept.step step (fun _ _ begun => begins_putsFromAck member begun) fun _ _ _ _ _ _ _ => trivial

theorem signed_of_ack (run : Runs X (World.start loop archive ttl) trace w) {receipt : RoutingReceipt}
    (signed : Signed trace w receipt) : ReceiptOfAck trace receipt := by
  rcases signed with ⟨m, id, answer, member⟩ | ⟨id, next, waiting⟩
  · have sat : TasksSat (fun _ => putsFromAck trace) (fun _ _ => True) m := by
      refine run.invariant_at (fun _ => trivial) ?_ member
      intro x label y inside step kept
      exact kept.step step (fun _ _ begun => begins_putsFromAck inside begun) fun _ _ _ _ _ _ _ => trivial
    obtain ⟨n, step⟩ := run.step_of_mem member
    exact sat.guaranteed step
  · exact ((putsFromAck_tasks run id).step waiting (.ok ())).1

/-- A receipt pays what the verified proofs of its ack declare, line for line. The ceiling of a
    dispatched token bounds it exactly when those prices add up to no more. -/
theorem payouts_total_declared (X : Externals) (loop : EventLoop C) (archive : ReceiptArchive) (ttl : UInt64)
    (w : World C) (trace : List (World C × Label)) (run : Runs X (World.start loop archive ttl) trace w)
    (receipt : RoutingReceipt) (signed : Signed trace w receipt) :
    ∃ n sender ack channel nowMs, (n, Label.event (.completion sender ack channel nowMs)) ∈ trace ∧
      Verified C ack ∧ ack.requestId = receipt.requestId ∧
      receipt.payouts.map (·.amountNanox) =
        (paidProofs ack (n.loop.addressesFor ack.requestId)).map (·.pricePaidNanox.value) ∧
      totalPaid receipt = totalDeclared ack (n.loop.addressesFor ack.requestId) := by
  obtain ⟨n, sender, ack, channel, nowMs, member, verified, issued⟩ := signed_of_ack run signed
  obtain ⟨request, _, payouts⟩ := receiptFor_eq_some issued
  refine ⟨n, sender, ack, channel, nowMs, member, verified, request.symm, ?_, receiptFor_total issued⟩
  rw [payouts, computePayouts_eq_map, List.map_map, List.map_map]
  rfl

theorem reach_overpriced :
    let C := Primitives.marking []
    let X := Externals.serde readSampleBid fun text => .ok ⟨text⟩
    ∃ trace w m peer dispatch out swarm receipt,
      Runs X (World.start (EventLoop.new (C := C) (Vector.replicate 32 0) false false)
        (.inMemory fun _ => none) 60000) trace w ∧
      (∀ step ∈ trace, step.2.handleOnly) ∧ (publishedIds trace).Nodup ∧
      (m, Label.command (.dispatchInference peer dispatch out) swarm) ∈ trace ∧
      dispatch.dispatchToken.maxPriceNanox.value = 10 ∧ Signed trace w receipt ∧
      receipt.requestId = dispatch.dispatchToken.requestId ∧ receipt.payouts = [⟨"0x0bad", 1000⟩] := by
  intro C X
  obtain ⟨before, m, w, _, reached⟩ :=
    reach_dispatched X (C := C) (Vector.replicate 32 0) sampleBid (bidMessage "12D3KooWPeerNode1") rfl (if_pos rfl) rfl
  let ack := paidAck C (Vector.replicate 32 0)
  have verified : Verified C ack := paidAck_verified (Primitives.marking_correct _) _
  obtain ⟨receipt, signed⟩ := receiptFor_isSome w.loop ⟨"12D3KooWPeerNode1"⟩ ack 1700000010000
    (show 1 < 2 ^ 31 by decide)
  obtain ⟨request, _, payouts⟩ := receiptFor_eq_some signed
  let completion : Label := .event (.completion ⟨"12D3KooWPeerNode1"⟩ ack 0 1700000010000)
  have acked : Step X w completion (w.notified X (.completion ⟨"12D3KooWPeerNode1"⟩ ack 0 1700000010000)) :=
    .event reached.idle
  let dispatch := pricedDispatch C (Vector.replicate 32 0) sampleBid.requestId sampleBid 1700000000000
  refine ⟨_, _, m, ⟨"12D3KooWPeerNode1"⟩, dispatch, ⟨sampleBid.requestId, 3⟩, ⟨.ok (), .ok (), 4, 4⟩, receipt,
    reached.run.snoc acked, ?_, ?_, ?_, rfl, .inr ⟨.eventLoop, _, notified_stores X w verified 0 signed⟩, request, ?_⟩
  · intro step member
    rcases List.mem_append.mp member with inside | last
    · exact (reached.clean step inside).1
    · rw [List.mem_singleton.mp last]
      exact trivial
  · rw [publishedIds_append, reached.published]
    exact List.nodup_singleton _
  · exact List.mem_append_left _ (List.mem_append_right _ (List.mem_singleton_self _))
  · rw [payouts]
    change (computePayouts ack (w.loop.addressesFor sampleBid.requestId)).map _ = _
    rw [EventLoop.addressesFor, reached.flight]
    rfl

/-- The receipt signed for the request pays a hundred times what the client allowed. -/
theorem ceiling_exceeded :
    let C := Primitives.marking []
    let X := Externals.serde readSampleBid fun text => .ok ⟨text⟩
    ∃ trace w m peer dispatch out swarm receipt,
      Runs X (World.start (EventLoop.new (C := C) (Vector.replicate 32 0) false false)
        (.inMemory fun _ => none) 60000) trace w ∧
      (∀ step ∈ trace, step.2.handleOnly) ∧ (publishedIds trace).Nodup ∧
      (m, Label.command (.dispatchInference peer dispatch out) swarm) ∈ trace ∧
      Signed trace w receipt ∧ receipt.requestId = dispatch.dispatchToken.requestId ∧
      ¬ totalPaid receipt ≤ dispatch.dispatchToken.maxPriceNanox.value.toNat := by
  intro C X
  obtain ⟨trace, w, m, peer, dispatch, out, swarm, receipt, run, handle, once, member, ceiling, signed, request,
    payouts⟩ := reach_overpriced
  refine ⟨trace, w, m, peer, dispatch, out, swarm, receipt, run, handle, once, member, signed, request, ?_⟩
  rw [totalPaid, payouts, ceiling]
  decide

theorem overpriced_as_declared :
    let C := Primitives.marking []
    let X := Externals.serde readSampleBid fun text => .ok ⟨text⟩
    ∃ trace w m peer dispatch out swarm receipt n sender ack channel nowMs,
      Runs X (World.start (EventLoop.new (C := C) (Vector.replicate 32 0) false false)
        (.inMemory fun _ => none) 60000) trace w ∧
      (m, Label.command (.dispatchInference peer dispatch out) swarm) ∈ trace ∧
      Signed trace w receipt ∧ receipt.payouts = [⟨"0x0bad", 1000⟩] ∧
      (n, Label.event (.completion sender ack channel nowMs)) ∈ trace ∧ Verified C ack ∧
      (paidProofs ack (n.loop.addressesFor ack.requestId)).map (·.pricePaidNanox.value) = [1000] ∧
      ¬ totalDeclared ack (n.loop.addressesFor ack.requestId) ≤ dispatch.dispatchToken.maxPriceNanox.value.toNat := by
  intro C X
  obtain ⟨trace, w, m, peer, dispatch, out, swarm, receipt, run, _, _, member, ceiling, signed, _, payouts⟩ :=
    reach_overpriced
  obtain ⟨n, sender, ack, channel, nowMs, delivered, verified, _, declared, total⟩ :=
    payouts_total_declared X _ _ _ w trace run receipt signed
  rw [payouts] at declared
  refine ⟨trace, w, m, peer, dispatch, out, swarm, receipt, n, sender, ack, channel, nowMs, run, member, signed,
    payouts, delivered, verified, declared.symm, ?_⟩
  rw [← total, totalPaid, payouts, ceiling]
  decide

end Coordinator
