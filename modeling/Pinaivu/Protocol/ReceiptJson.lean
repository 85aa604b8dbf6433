import Pinaivu.Protocol.CanonicalBytes
import Pinaivu.Protocol.RoutingReceipt

namespace Protocol

open Wire Crypto

def Payout.json (p : Payout) : Json :=
  .object [("sui_address", .string p.suiAddress), ("amount_nanox", .number p.amountNanox.toNat)]

def RoutingReceipt.json (r : RoutingReceipt) : Json :=
  .object
    [("request_id", jsonUuid r.requestId),
     ("client_id", .string r.clientId),
     ("primary_peer_id", .string r.primaryPeerId.value),
     ("helper_peer_ids", .array (r.helperPeerIds.map fun p => .string p.value)),
     ("bid_set_hash", jsonBytes r.bidSetHash.toList),
     ("proof_ids", .array (r.proofIds.map fun digest => jsonBytes digest.toList)),
     ("aggregated_output_hash", jsonBytes r.aggregatedOutputHash.toList),
     ("payouts", .array (r.payouts.map Payout.json)),
     ("timestamp_ms", .number r.timestampMs.toNat),
     ("coordinator_pubkey", jsonBytes r.coordinatorPubkey.toList),
     ("signature", jsonBytes r.signature)]

theorem Payout.json_injective : Function.Injective Payout.json := by
  intro p q same
  cases p
  cases q
  simpa [Payout.json, UInt64.toNat_inj] using same

theorem RoutingReceipt.json_injective : Function.Injective RoutingReceipt.json := by
  have peers : Function.Injective fun p : NodePeerId => Json.string p.value := by
    intro p q same
    cases p
    cases q
    simpa using same
  have digests : Function.Injective fun digest : Digest => jsonBytes digest.toList := by
    intro x y same
    exact Vector.toList_inj.mp ((jsonBytes_inj _ _).mp same)
  intro r s same
  rcases r with ⟨_, _, ⟨_⟩, _, _, _, _, _, _, _, _⟩
  rcases s with ⟨_, _, ⟨_⟩, _, _, _, _, _, _, _, _⟩
  simpa only [RoutingReceipt.json, Json.object.injEq, List.cons.injEq, Prod.mk.injEq, true_and, and_true,
    jsonUuid_inj, jsonBytes_inj, Json.string.injEq, Json.number.injEq, Json.array.injEq,
    Vector.toList_inj, UInt64.toNat_inj, (List.map_injective_iff.mpr peers).eq_iff,
    (List.map_injective_iff.mpr digests).eq_iff, (List.map_injective_iff.mpr Payout.json_injective).eq_iff,
    RoutingReceipt.mk.injEq, NodePeerId.mk.injEq] using same

end Protocol
