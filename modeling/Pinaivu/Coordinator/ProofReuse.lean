import Mathlib.Data.List.Nodup
import Pinaivu.Protocol.CanonicalBytes
import Pinaivu.Coordinator.Completion

namespace Coordinator

open Protocol Crypto Async

variable {C : Primitives} {X : Externals}

def paidBy (step : World C × Label) : List (RequestId × ProofOfInference) :=
  match step.2 with
  | .event (.completion _ ack _ _) =>
    if Verified C ack then
      (paidProofs ack (step.1.loop.addressesFor ack.requestId)).map fun proof => (ack.requestId, proof)
    else []
  | _ => []

def paidInRun (trace : List (World C × Label)) : List (RequestId × ProofOfInference) :=
  trace.flatMap paidBy

def paidIds (paid : List (RequestId × ProofOfInference)) (C : Primitives) : List Digest :=
  paid.map fun entry => entry.2.id C

/-- Of the proofs in a verified ack that are to be paid, each is for the ack's own request and none
    comes twice. -/
def PaysOwnProofsOnce (step : World C × Label) : Prop :=
  ∀ sender ack channel nowMs, step.2 = .event (.completion sender ack channel nowMs) →
    Verified C ack →
    let paid := paidProofs ack (step.1.loop.addressesFor ack.requestId)
    (∀ proof ∈ paid, proof.requestId = ack.requestId) ∧ (paid.map (·.id C)).Nodup

theorem mem_paidBy {step : World C × Label} {r : RequestId} {proof : ProofOfInference}
    (member : (r, proof) ∈ paidBy step) :
    ∃ sender ack channel nowMs, step.2 = .event (.completion sender ack channel nowMs) ∧
      Verified C ack ∧ ack.requestId = r ∧ proof ∈ paidProofs ack (step.1.loop.addressesFor r) := by
  unfold paidBy at member
  split at member
  · rename_i sender ack channel nowMs shape
    split at member
    · rename_i verified
      rw [List.mem_map] at member
      rcases member with ⟨other, inside, same⟩
      rw [Prod.mk.injEq] at same
      rcases same with ⟨rfl, rfl⟩
      exact ⟨sender, ack, channel, nowMs, shape, verified, rfl, inside⟩
    · cases member
  · cases member

theorem consumes_of_paidBy {step : World C × Label} {r : RequestId} {proof : ProofOfInference}
    (member : (r, proof) ∈ paidBy step) : Consumes r step := by
  obtain ⟨sender, ack, channel, nowMs, shape, verified, request, inside⟩ := mem_paidBy member
  refine ⟨sender, ack, channel, nowMs, shape, request, verified, ?_⟩
  have recorded := (List.mem_filter.mp inside).2
  unfold EventLoop.addressesFor at recorded
  cases found : step.1.loop.inFlight r with
  | none => simp [found] at recorded
  | some flight => rfl

theorem paidBy_requests {step : World C × Label} (own : PaysOwnProofsOnce step) {r : RequestId}
    {proof : ProofOfInference} (member : (r, proof) ∈ paidBy step) : proof.requestId = r := by
  obtain ⟨sender, ack, channel, nowMs, shape, verified, rfl, inside⟩ := mem_paidBy member
  exact (own sender ack channel nowMs shape verified).1 proof inside

theorem paidBy_nodup {step : World C × Label} (own : PaysOwnProofsOnce step) :
    (paidIds (paidBy step) C).Nodup := by
  unfold paidIds paidBy
  split
  · rename_i sender ack channel nowMs shape
    split
    · rename_i verified
      rw [List.map_map]
      exact (own sender ack channel nowMs shape verified).2
    · exact List.nodup_nil
  · exact List.nodup_nil

theorem request_of_same_id {messages : Set (List UInt8)} (free : C.CollisionFree messages)
    {p q : ProofOfInference} (hp : p.canonicalBytes ∈ messages) (hq : q.canonicalBytes ∈ messages)
    (same : p.id C = q.id C) : p.requestId = q.requestId := by
  have bytes := free _ hp _ hq same
  have fields := (p.canonicalBytes_eq_iff q).mp bytes
  rw [← fields]

theorem paidIds_nodup {start w : World C} {trace : List (World C × Label)} (run : Runs X start trace w)
    (fresh : ∀ r, start.loop.inFlight r = none) (once : (publishedIds trace).Nodup)
    (own : ∀ step ∈ trace, PaysOwnProofsOnce step)
    (free : C.CollisionFree { bytes | ∃ paid ∈ paidInRun trace, paid.2.canonicalBytes = bytes }) :
    (paidIds (paidInRun trace) C).Nodup := by
  rw [paidIds, paidInRun, List.map_flatMap, List.nodup_flatMap]
  refine ⟨fun step taken => paidBy_nodup (own step taken), ?_⟩
  have apart := consumed_apart run fresh once
  apply apart.imp_of_mem
  intro x y hx hy separate digest left right
  obtain ⟨⟨r, p⟩, inX, idX⟩ := List.mem_map.mp left
  obtain ⟨⟨s, q⟩, inY, idY⟩ := List.mem_map.mp right
  have requests : p.requestId = q.requestId := by
    apply request_of_same_id free _ _ (idX.trans idY.symm)
    · exact ⟨(r, p), List.mem_flatMap.mpr ⟨x, hx, inX⟩, rfl⟩
    · exact ⟨(s, q), List.mem_flatMap.mpr ⟨y, hy, inY⟩, rfl⟩
  rw [paidBy_requests (own x hx) inX, paidBy_requests (own y hy) inY] at requests
  subst s
  exact separate r (consumes_of_paidBy inX) (consumes_of_paidBy inY)

theorem paysOwnProofsOnce_of_run {trace : List (World C × Label)}
    (requests : ∀ paid ∈ paidInRun trace, paid.2.requestId = paid.1)
    (nodup : (paidIds (paidInRun trace) C).Nodup) {step : World C × Label} (taken : step ∈ trace) :
    PaysOwnProofsOnce step := by
  intro sender ack channel nowMs shape verified
  have paid : paidBy step = (paidProofs ack (step.1.loop.addressesFor ack.requestId)).map
      fun proof => (ack.requestId, proof) := by
    simp only [paidBy, shape, verified, ↓reduceIte]
  constructor
  · intro proof member
    apply requests (ack.requestId, proof)
    exact List.mem_flatMap.mpr ⟨step, taken, by rw [paid]; exact List.mem_map_of_mem member⟩
  · rw [paidIds, paidInRun, List.map_flatMap, List.nodup_flatMap] at nodup
    have inside := nodup.1 step taken
    rw [paid, List.map_map] at inside
    exact inside

/-- No proof is paid twice in the whole run, and none for a foreign request, exactly when no single
    ack does it: a request leaves flight once, and a proof's id fixes the request it was made for. -/
theorem no_proof_paid_twice (X : Externals) (start w : World C) (trace : List (World C × Label))
    (run : Runs X start trace w) (fresh : ∀ r, start.loop.inFlight r = none)
    (once : (publishedIds trace).Nodup)
    (free : C.CollisionFree { bytes | ∃ paid ∈ paidInRun trace, paid.2.canonicalBytes = bytes }) :
    (∀ step ∈ trace, ∀ sender ack channel nowMs,
      step.2 = .event (.completion sender ack channel nowMs) → Verified C ack →
      computePayouts ack (step.1.loop.addressesFor ack.requestId) =
        (paidBy step).map fun paid => payoutLine (step.1.loop.addressesFor ack.requestId) paid.2) ∧
    (((∀ paid ∈ paidInRun trace, paid.2.requestId = paid.1) ∧ (paidIds (paidInRun trace) C).Nodup) ↔
      ∀ step ∈ trace, PaysOwnProofsOnce step) := by
  refine ⟨?_, ?_, ?_⟩
  · intro step _ sender ack channel nowMs shape verified
    simp only [paidBy, shape, verified, ↓reduceIte, List.map_map]
    exact computePayouts_eq_map ack _
  · intro given step taken
    obtain ⟨requests, nodup⟩ := given
    exact paysOwnProofsOnce_of_run requests nodup taken
  · intro own
    refine ⟨?_, paidIds_nodup run fresh once own free⟩
    intro paid member
    obtain ⟨step, taken, inside⟩ := List.mem_flatMap.mp member
    exact paidBy_requests (own step taken) inside

theorem paidInRun_quiet {trace : List (World C × Label)} (quiet : ∀ step ∈ trace, step.2.quiet) :
    paidInRun trace = [] := by
  rw [paidInRun, List.flatMap_eq_nil_iff]
  intro step member
  unfold paidBy
  split
  · rename_i shape
    have silent := quiet step member
    rw [shape] at silent
    cases silent
  · rfl

theorem reach_paid (X : Externals) (C : Primitives) (correct : C.Correct) (key : C.SigningKey)
    (proofs : List ProofOfInference) (short : proofs.length < 2 ^ 31)
    (verified : ∀ p ∈ proofs, p.verify C = .ok ())
    (recorded : ∀ p ∈ proofs, p.nodePeerId.value = "12D3KooWPeerNode1") :
    ∃ trace w receipt, Runs X (World.start (EventLoop.new key false false) (.inMemory fun _ => none) 60000)
        trace w ∧
      publishedIds trace = [sampleRequest.requestId] ∧
      (∃ m, (m, Label.call .eventLoop (.sendResponse 0 (.ok receipt)) ()) ∈ trace) ∧
      paidInRun trace = proofs.map fun p => (sampleRequest.requestId, p) := by
  obtain ⟨before, m, left, idle, _, noPool, published, quiet, flight, _⟩ := reach_sample X C key false false
    (.inMemory fun _ => none)
  let ack : CompletionAck := CompletionAck.sign C key
    ⟨sampleRequest.requestId, proofs, Vector.replicate 32 9, Vector.replicate 32 0, []⟩
  have accepted : Verified C ack := verified_of_signed correct key _ verified
  obtain ⟨receipt, signed⟩ := receiptFor_isSome m.loop ⟨"12D3KooWPeerNode1"⟩ ack 1700000010000 short
  obtain ⟨after, w, right, silent, unpublished, answered, _⟩ := reach_accepted X m idle noPool accepted 0 signed
  have addresses : m.loop.addressesFor sampleRequest.requestId = sampleAddresses := by
    rw [EventLoop.addressesFor, flight]
    rfl
  have all : paidProofs ack sampleAddresses = proofs := by
    apply List.filter_eq_self.mpr
    intro proof member
    simp [sampleAddresses, recorded proof member]
  refine ⟨_, w, receipt, left.append right, ?_, ?_, ?_⟩
  · rw [publishedIds_append, published, publishedIds_event, unpublished]
    rfl
  · rcases answered with ⟨state, member⟩
    exact ⟨state, List.mem_append_right _ (List.mem_cons_of_mem _ member)⟩
  · have paid : paidBy (m, Label.event (.completion ⟨"12D3KooWPeerNode1"⟩ ack 0 1700000010000)) =
        proofs.map fun p => (sampleRequest.requestId, p) := by
      simp only [paidBy, accepted, ↓reduceIte]
      change (paidProofs ack (m.loop.addressesFor sampleRequest.requestId)).map _ = _
      rw [addresses, all]
      rfl
    have rest := paidInRun_quiet silent
    rw [paidInRun] at rest ⊢
    rw [List.flatMap_append, List.flatMap_cons, rest, paid, List.append_nil]
    have first := paidInRun_quiet quiet
    rw [paidInRun] at first
    rw [first, List.nil_append]

theorem same_message_collision_free (C : Primitives) (messages : Set (List UInt8)) (message : List UInt8)
    (only : ∀ m ∈ messages, m = message) : C.CollisionFree messages := by
  intro m hm n hn _
  rw [only m hm, only n hn]

/-- A bidder that lists one proof twice in its ack is paid for it twice. -/
theorem repeated_proof_paid_twice :
    let C := Primitives.marking []
    let X := Externals.serde (fun _ => none) fun text => .ok ⟨text⟩
    ∃ trace w receipt,
      Runs X (World.start (EventLoop.new (C := C) (Vector.replicate 32 0) false false)
        (.inMemory fun _ => none) 60000) trace w ∧
      (publishedIds trace).Nodup ∧
      (∃ m, (m, Label.call .eventLoop (.sendResponse 0 (.ok receipt)) ()) ∈ trace) ∧
      C.CollisionFree { bytes | ∃ paid ∈ paidInRun trace, paid.2.canonicalBytes = bytes } ∧
      ¬ (paidIds (paidInRun trace) C).Nodup := by
  intro C X
  let proof := sampleProof.sign C (Vector.replicate 32 0)
  have verified : proof.verify C = .ok () :=
    ProofOfInference.verify_sign (Primitives.marking_correct _) _ _
  obtain ⟨trace, w, receipt, run, published, answered, paid⟩ := reach_paid X C
    (Primitives.marking_correct _) (Vector.replicate 32 0) [proof, proof] (by decide)
    (by simp [verified]) (by simp [proof, ProofOfInference.sign, sampleProof])
  refine ⟨trace, w, receipt, run, ?_, answered, ?_, ?_⟩
  · rw [published]
    exact List.nodup_singleton _
  · apply same_message_collision_free C _ proof.canonicalBytes
    intro m given
    obtain ⟨entry, member, rfl⟩ := given
    rw [paid] at member
    simp only [List.map_cons, List.map_nil, List.mem_cons, List.not_mem_nil, or_false, or_self] at member
    rw [member]
  · rw [paid]
    simp [paidIds]

theorem distinct_proofs_paid_once :
    let C := Primitives.summing
    let X := Externals.serde (fun _ => none) fun text => .ok ⟨text⟩
    ∃ trace w,
      Runs X (World.start (EventLoop.new (C := C) (Vector.replicate 32 0) false false)
        (.inMemory fun _ => none) 60000) trace w ∧
      (paidInRun trace).length = 2 ∧ ∀ step ∈ trace, PaysOwnProofsOnce step := by
  intro C X
  let first := sampleProof.sign C (Vector.replicate 32 0)
  let second := { sampleProof with pricePaidNanox := ⟨2000⟩ }.sign C (Vector.replicate 32 0)
  have verified : ∀ p ∈ [first, second], p.verify C = .ok () := by
    intro p member
    simp only [List.mem_cons, List.not_mem_nil, or_false] at member
    rcases member with rfl | rfl <;> exact ProofOfInference.verify_sign Primitives.summing_correct _ _
  obtain ⟨trace, w, receipt, run, published, answered, paid⟩ := reach_paid X C Primitives.summing_correct
    (Vector.replicate 32 0) [first, second] (by decide) verified
    (by simp [first, second, ProofOfInference.sign, sampleProof])
  have apart : C.sha256 first.canonicalBytes ≠ C.sha256 second.canonicalBytes := by decide +kernel
  have free : C.CollisionFree { bytes | ∃ paid ∈ paidInRun trace, paid.2.canonicalBytes = bytes } := by
    apply Primitives.collisionFree_pair apart
    intro m given
    obtain ⟨entry, member, rfl⟩ := given
    rw [paid] at member
    simp only [List.map_cons, List.map_nil, List.mem_cons, List.not_mem_nil, or_false] at member
    rcases member with rfl | rfl
    · exact .inl rfl
    · exact .inr rfl
  have once : (publishedIds trace).Nodup := by
    rw [published]
    exact List.nodup_singleton _
  refine ⟨trace, w, run, by rw [paid]; rfl, ?_⟩
  apply (no_proof_paid_twice X _ w trace run (fun _ => rfl) once free).2.mp
  rw [paid]
  constructor
  · simp [first, second, ProofOfInference.sign, sampleProof, sampleRequest]
  · have ids : (paidIds ([first, second].map fun p => (sampleRequest.requestId, p)) C) = [first.id C, second.id C] := rfl
    rw [ids, List.nodup_cons]
    exact ⟨fun member => apart (List.mem_singleton.mp member), List.nodup_singleton _⟩

end Coordinator
