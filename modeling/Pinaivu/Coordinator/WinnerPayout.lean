import Pinaivu.Coordinator.Inference
import Pinaivu.Coordinator.Payments
import Pinaivu.Coordinator.Winner

namespace Coordinator

open Protocol Selection

def Names (peer : NodePeerId) (bid : InferenceBid) : Prop := bid.nodePeerId = peer ∧ bid.payoutAddress ≠ ""

instance (peer : NodePeerId) (bid : InferenceBid) : Decidable (Names peer bid) := inferInstanceAs (Decidable (_ ∧ _))

theorem nodePeerId_of_value {a b : NodePeerId} (same : a.value = b.value) : a = b := by
  cases a
  cases b
  exact congrArg NodePeerId.mk same

variable {bids before after : List InferenceBid} {peer : NodePeerId} {bid : InferenceBid}

theorem payoutAddresses_snoc (bids : List InferenceBid) (bid : InferenceBid) (peer : NodePeerId) :
    payoutAddresses (bids ++ [bid]) peer.value =
      if Names peer bid then some bid.payoutAddress else payoutAddresses bids peer.value := by
  unfold payoutAddresses Names
  rw [List.filter_append, List.map_append, List.foldl_append]
  by_cases empty : bid.payoutAddress = ""
  · simp [empty]
  · by_cases own : bid.nodePeerId = peer
    · simp [empty, own]
    · have other : peer.value ≠ bid.nodePeerId.value := fun same => own (nodePeerId_of_value same.symm)
      simp [empty, own, Function.update_of_ne other]

theorem payoutAddresses_last (names : Names peer bid) (rest : ∀ other ∈ after, ¬ Names peer other) :
    payoutAddresses (before ++ bid :: after) peer.value = some bid.payoutAddress := by
  induction after using List.reverseRecOn with
  | nil => rw [payoutAddresses_snoc, if_pos names]
  | append_singleton after last ih =>
    have quiet : ¬ Names peer last := rest last (List.mem_append_right _ (List.mem_singleton_self _))
    rw [← List.cons_append, ← List.append_assoc, payoutAddresses_snoc, if_neg quiet]
    exact ih fun other member => rest other (List.mem_append_left _ member)

theorem computePayouts_peer (ack : CompletionAck) {addresses : PayoutAddresses} {peer : NodePeerId} {address : String}
    (known : addresses peer.value = some address) :
    (computePayouts ack addresses).filter (·.peerId = peer.value) =
      (ack.proofs.filter (·.nodePeerId = peer)).map fun proof => ⟨peer.value, address, proof.pricePaidNanox.value⟩ := by
  have paid : (paidProofs ack addresses).filter (·.nodePeerId.value = peer.value) =
      ack.proofs.filter (·.nodePeerId = peer) := by
    rw [paidProofs, List.filter_filter]
    refine List.filter_congr fun proof _ => ?_
    by_cases own : proof.nodePeerId = peer
    · simp [own, known]
    · have other : proof.nodePeerId.value ≠ peer.value := fun same => own (nodePeerId_of_value same)
      simp [own, other]
  rw [computePayouts_eq_map, List.filter_map]
  change ((paidProofs ack addresses).filter (·.nodePeerId.value = peer.value)).map _ = _
  rw [paid]
  refine List.map_congr_left fun proof member => ?_
  have own : proof.nodePeerId = peer := by simpa using (List.mem_filter.mp member).2
  simp [payoutLine, own, known]

/-- The winner is one of the bids, and any of the bids is paid where it says exactly when no later bid of the same
    peer names another address for good. -/
theorem winner_paid_at_own_address_iff (bids : List InferenceBid) :
    (∀ warmthMap w, pickWinnerWithWarmth bids warmthMap = some w → w ∈ bids) ∧
      ∀ w ∈ bids, w.payoutAddress ≠ "" →
        ((payoutAddresses bids w.nodePeerId.value = some w.payoutAddress ∧
            ∀ ack, (computePayouts ack (payoutAddresses bids)).filter (·.peerId = w.nodePeerId.value) =
              (ack.proofs.filter (·.nodePeerId = w.nodePeerId)).map fun proof =>
                ⟨w.nodePeerId.value, w.payoutAddress, proof.pricePaidNanox.value⟩) ↔
          ∀ before b after, bids = before ++ b :: after → b.nodePeerId = w.nodePeerId → b.payoutAddress ≠ "" →
            b.payoutAddress ≠ w.payoutAddress →
              ∃ later ∈ after, later.nodePeerId = w.nodePeerId ∧ later.payoutAddress = w.payoutAddress) := by
  refine ⟨fun warmthMap w won => (winner_lastMax won).mem, fun w member address => ?_⟩
  have names : Names w.nodePeerId w := ⟨rfl, address⟩
  obtain ⟨before, last, after, rfl, chosen, rest⟩ := exists_last member names
  have mapped : payoutAddresses (before ++ last :: after) w.nodePeerId.value = some last.payoutAddress :=
    payoutAddresses_last chosen rest
  constructor
  · intro given before' b after' shape own named different
    obtain ⟨known, _⟩ := given
    have same : last.payoutAddress = w.payoutAddress := Option.some.inj (mapped.symm.trans known)
    have apart : last ≠ b := fun equal => different (equal ▸ same)
    rcases mem_after_of_split shape apart with behind | later
    · exact absurd ⟨own, named⟩ (rest b behind)
    · exact ⟨last, later, chosen.1, same⟩
  · intro settled
    have same : last.payoutAddress = w.payoutAddress := by
      by_contra different
      obtain ⟨later, behind, own, equal⟩ := settled before last after rfl chosen.1 chosen.2 different
      exact rest later behind ⟨own, equal ▸ address⟩
    rw [same] at mapped
    exact ⟨mapped, fun ack => computePayouts_peer ack mapped⟩

def bidTo (address : String) (bid : InferenceBid) : InferenceBid := { bid with payoutAddress := address }

theorem restored_winner_paid :
    let w := bidTo "0xa" (bidAt "A" 50 300 (9 / 10))
    let bids := [w, bidTo "0xb" (bidAt "A" 80 300 (9 / 10)), bidTo "0xa" (bidAt "A" 90 300 (9 / 10))]
    pickWinnerWithWarmth bids (fun _ => none) = some w ∧ w ∈ bids ∧
      payoutAddresses bids w.nodePeerId.value = some w.payoutAddress := by
  intro w bids
  have won : pickWinnerWithWarmth bids (fun _ => none) = some w := by decide +kernel
  obtain ⟨chosen, paid⟩ := winner_paid_at_own_address_iff bids
  have member := chosen _ w won
  refine ⟨won, member, ((paid w member (by decide)).mpr ?_).1⟩
  intro before b after shape _ _ different
  rcases before with _ | ⟨_, _ | ⟨_, _ | ⟨_, before⟩⟩⟩
  · obtain ⟨rfl, _⟩ := List.cons.inj shape
    exact absurd rfl different
  · obtain ⟨_, rest⟩ := List.cons.inj shape
    obtain ⟨_, rfl⟩ := List.cons.inj rest
    exact ⟨_, List.mem_singleton_self _, rfl, rfl⟩
  · obtain ⟨_, rest⟩ := List.cons.inj shape
    obtain ⟨_, last⟩ := List.cons.inj rest
    obtain ⟨rfl, _⟩ := List.cons.inj last
    exact absurd rfl different
  · have long := congrArg List.length shape
    simp [bids] at long

/-- The peer wins with its first bid and is recorded with the address of its second. -/
theorem second_bid_redirects_payout :
    let w := bidTo "0xa" (bidAt "A" 50 300 (9 / 10))
    let second := bidTo "0xb" (bidAt "A" 80 300 (9 / 10))
    pickWinnerWithWarmth [w, second] (fun _ => none) = some w ∧ w.payoutAddress ≠ "" ∧
      payoutAddresses [w, second] w.nodePeerId.value = some "0xb" ∧ w.payoutAddress ≠ "0xb" := by
  intro w second
  exact ⟨by decide +kernel, by decide, rfl, by decide⟩

end Coordinator
