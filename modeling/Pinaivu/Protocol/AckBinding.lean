import Pinaivu.Protocol.CanonicalBytes

namespace Protocol

open Wire Crypto

def SameProofs (ps qs : List ProofOfInference) : Prop :=
  List.Forall₂ (fun p q => { p with signature := q.signature } = q) ps qs

def CompletionAck.SameSigned (a b : CompletionAck) : Prop :=
  a.requestId = b.requestId ∧ a.aggregatedOutputHash = b.aggregatedOutputHash ∧
    a.primaryPubkey = b.primaryPubkey ∧ SameProofs a.proofs b.proofs

def proofMessages (proofs : List ProofOfInference) : Set (List UInt8) :=
  { message | ∃ p ∈ proofs, p.canonicalBytes = message }

theorem ids_eq_iff (C : Primitives) : ∀ ps qs : List ProofOfInference,
    C.CollisionFree (proofMessages (ps ++ qs)) →
    (ps.map (·.id C) = qs.map (·.id C) ↔ SameProofs ps qs)
  | [], [], _ => by simp [SameProofs]
  | [], q :: qs, _ => by simp [SameProofs]
  | p :: ps, [], _ => by simp [SameProofs]
  | p :: ps, q :: qs, free => by
    have rest : C.CollisionFree (proofMessages (ps ++ qs)) := by
      apply free.subset
      intro message member
      rcases member with ⟨proof, inside, rfl⟩
      refine ⟨proof, ?_, rfl⟩
      simp only [List.mem_append, List.mem_cons] at inside ⊢
      rcases inside with inside | inside
      · exact .inl (.inr inside)
      · exact .inr (.inr inside)
    have heads : p.id C = q.id C ↔ { p with signature := q.signature } = q := by
      rw [← p.canonicalBytes_eq_iff q]
      constructor
      · exact free _ ⟨p, by simp, rfl⟩ _ ⟨q, by simp, rfl⟩
      · exact congrArg C.sha256
    have tails := ids_eq_iff C ps qs rest
    simp only [SameProofs] at tails
    simp only [List.map_cons, List.cons.injEq, SameProofs, List.forall₂_cons, heads, tails]

theorem CompletionAck.canonicalBytes_eq_iff (C : Primitives) (a b : CompletionAck)
    (free : C.CollisionFree (proofMessages (a.proofs ++ b.proofs))) :
    a.canonicalBytes C = b.canonicalBytes C ↔ a.SameSigned b := by
  have digests : Function.Injective fun digest : Digest => jsonBytes digest.toList := by
    intro x y same
    exact Vector.toList_inj.mp ((jsonBytes_inj _ _).mp same)
  rw [CompletionAck.canonicalBytes, CompletionAck.canonicalBytes, Json.render_injective.eq_iff]
  simp only [CompletionAck.canonical, Json.object.injEq, List.cons.injEq, Prod.mk.injEq, true_and,
    and_true, jsonUuid_inj, jsonBytes_inj, Json.array.injEq, Vector.toList_inj,
    (List.map_injective_iff.mpr digests).eq_iff, CompletionAck.proofIds,
    ids_eq_iff C a.proofs b.proofs free, CompletionAck.SameSigned]
  tauto

/-- The primary's signature covers the proof list: an ack that carries the signature of another
    verifies exactly when it agrees with it on everything but the proofs' own signatures. -/
theorem ack_signature_binds_proof_list (C : Primitives) (correct : C.Correct) (a b : CompletionAck)
    (free : C.CollisionFree (proofMessages (a.proofs ++ b.proofs))) :
    (a.canonicalBytes C = b.canonicalBytes C ↔ a.SameSigned b) ∧
    ∀ key : C.SigningKey, C.Binds key ((a.sign C key).canonicalBytes C) →
      b.signature = (a.sign C key).signature →
      (b.verifyPrimary C = .ok () ↔ (a.sign C key).SameSigned b) := by
  refine ⟨a.canonicalBytes_eq_iff C b free, ?_⟩
  intro key binds carried
  have signedBytes := (a.sign C key).canonicalBytes_eq_iff C b free
  rw [CompletionAck.verifyPrimary, carried]
  constructor
  · intro accepted
    have messages : b.canonicalBytes C = (a.sign C key).canonicalBytes C :=
      verifyMessage_binds binds accepted
    exact signedBytes.mp messages.symm
  · intro same
    have holder : b.primaryPubkey = C.verifyingKey key := same.2.2.1.symm
    rw [holder, ← signedBytes.mpr same]
    exact verifyMessage_signed correct key _

def sampleAck : CompletionAck where
  requestId := ⟨Vector.replicate 16 0⟩
  proofs := [sampleProof]
  aggregatedOutputHash := Vector.replicate 32 9
  primaryPubkey := Vector.replicate 32 0
  signature := []

theorem ack_signature_rejects_appended_proof :
    let C := Primitives.marking (sampleAck.canonicalBytes (Primitives.marking []))
    let signed := sampleAck.sign C (Vector.replicate 32 0)
    signed.verifyPrimary C = .ok () ∧
      { signed with proofs := [sampleProof, sampleProof] }.verifyPrimary C ≠ .ok () := by
  intro C signed
  have free (proofs : List ProofOfInference) (copies : ∀ p ∈ proofs, p = sampleProof) :
      C.CollisionFree (proofMessages proofs) := by
    intro _ given _ found _
    obtain ⟨p, hp, rfl⟩ := given
    obtain ⟨q, hq, rfl⟩ := found
    rw [copies p hp, copies q hq]
  have binds : C.Binds (Vector.replicate 32 0) (signed.canonicalBytes C) := Primitives.marking_binds _ _
  constructor
  · have commits := (ack_signature_binds_proof_list C (Primitives.marking_correct _) sampleAck signed
      (free _ (by simp [sampleAck, signed, CompletionAck.sign]))).2 _ binds rfl
    exact commits.mpr ⟨rfl, rfl, rfl, by simp [SameProofs, sampleAck, signed, CompletionAck.sign]⟩
  · intro accepted
    have commits := (ack_signature_binds_proof_list C (Primitives.marking_correct _) sampleAck
      { signed with proofs := [sampleProof, sampleProof] }
      (free _ (by simp [sampleAck]))).2 _ binds rfl
    have proofs := (commits.mp accepted).2.2.2
    simp [SameProofs, sampleAck, CompletionAck.sign] at proofs

end Protocol
