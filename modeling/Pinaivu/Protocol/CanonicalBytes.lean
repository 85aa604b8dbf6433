import Pinaivu.Protocol.Artefacts

namespace Protocol

open Wire Crypto

theorem jsonOption_string_inj (x y : Option String) :
    jsonOption Json.string x = jsonOption Json.string y ↔ x = y :=
  jsonOption_inj (fun _ _ same => Json.string.inj same) (by simp) x y

theorem jsonOption_key_inj (x y : Option (Vector UInt8 32)) :
    jsonOption (fun key => jsonBytes key.toList) x = jsonOption (fun key => jsonBytes key.toList) y ↔
      x = y := by
  apply jsonOption_inj
  · intro a b same
    exact Vector.toList_inj.mp ((jsonBytes_inj _ _).mp same)
  · intro a
    simp [jsonBytes]

theorem ProofOfInference.canonicalBytes_eq_iff (p q : ProofOfInference) :
    p.canonicalBytes = q.canonicalBytes ↔ { p with signature := q.signature } = q := by
  rw [ProofOfInference.canonicalBytes, ProofOfInference.canonicalBytes, Json.render_injective.eq_iff]
  rcases p with ⟨_, _, ⟨_⟩, _, _, _, _, _, ⟨_⟩, _, _, _, _, _, _, _⟩
  rcases q with ⟨_, _, ⟨_⟩, _, _, _, _, _, ⟨_⟩, _, _, _, _, _, _, _⟩
  simp only [ProofOfInference.canonical, Json.object.injEq, List.cons.injEq, Prod.mk.injEq, true_and,
    and_true, jsonUuid_inj, jsonBytes_inj, jsonOption_string_inj, Json.string.injEq, Json.number.injEq,
    Vector.toList_inj, UInt32.toNat_inj, UInt64.toNat_inj, ProofOfInference.mk.injEq,
    NodePeerId.mk.injEq, NanoX.mk.injEq]

theorem DispatchToken.canonicalBytes_eq_iff (s t : DispatchToken) :
    s.canonicalBytes = t.canonicalBytes ↔ { s with signature := t.signature } = t := by
  rw [DispatchToken.canonicalBytes, DispatchToken.canonicalBytes, Json.render_injective.eq_iff]
  rcases s with ⟨_, _, _, ⟨_⟩, _, ⟨_⟩, _, _, _, _, _⟩
  rcases t with ⟨_, _, _, ⟨_⟩, _, ⟨_⟩, _, _, _, _, _⟩
  simp only [DispatchToken.canonical, Json.object.injEq, List.cons.injEq, Prod.mk.injEq, true_and,
    and_true, jsonUuid_inj, jsonBytes_inj, jsonOption_key_inj, Json.string.injEq, Json.number.injEq,
    Vector.toList_inj, UInt64.toNat_inj, DispatchToken.mk.injEq, NodePeerId.mk.injEq, NanoX.mk.injEq]

theorem RecruitRequest.canonicalBytes_eq_iff (r s : RecruitRequest) :
    r.canonicalBytes = s.canonicalBytes ↔ { r with signature := s.signature } = s := by
  rw [RecruitRequest.canonicalBytes, RecruitRequest.canonicalBytes, Json.render_injective.eq_iff]
  rcases r with ⟨_, _, _, _, _, _, _⟩
  rcases s with ⟨_, _, _, _, _, _, _⟩
  simp only [RecruitRequest.canonical, Json.object.injEq, List.cons.injEq, Prod.mk.injEq, true_and,
    and_true, jsonUuid_inj, jsonBytes_inj, Json.string.injEq, Json.number.injEq, Vector.toList_inj,
    UInt64.toNat_inj, RecruitRequest.mk.injEq]

/-- The JSON artefacts are determined by their signed bytes and their signature, so a verifier that
    checks an ideal signature accepts exactly the value that was signed. -/
theorem canonicalBytes_commit_to_signed_fields (C : Primitives) (correct : C.Correct) :
    (∀ p q : ProofOfInference,
      p.canonicalBytes = q.canonicalBytes ↔ { p with signature := q.signature } = q) ∧
    (∀ s t : DispatchToken,
      s.canonicalBytes = t.canonicalBytes ↔ { s with signature := t.signature } = t) ∧
    (∀ r s : RecruitRequest,
      r.canonicalBytes = s.canonicalBytes ↔ { r with signature := s.signature } = s) ∧
    (∀ (key : C.SigningKey) (p q : ProofOfInference), C.Binds key (p.sign C key).canonicalBytes →
      q.signature = (p.sign C key).signature → (q.verify C = .ok () ↔ q = p.sign C key)) ∧
    (∀ (key : C.SigningKey) (s t : DispatchToken), C.Binds key (s.sign C key).canonicalBytes →
      t.signature = (s.sign C key).signature → (t.verify C = .ok () ↔ t = s.sign C key)) ∧
    (∀ (key : C.SigningKey) (r s : RecruitRequest), C.Binds key (r.sign C key).canonicalBytes →
      s.signature = (r.sign C key).signature → (s.verify C = .ok () ↔ s = r.sign C key)) := by
  refine ⟨ProofOfInference.canonicalBytes_eq_iff, DispatchToken.canonicalBytes_eq_iff,
    RecruitRequest.canonicalBytes_eq_iff, ?_, ?_, ?_⟩
  · intro key p q binds carried
    exact verifyMessage_iff_untouched correct key (·.nodePubkey) (·.signature) (·.canonicalBytes)
      (fun a b signatures messages => by
        have fields := (a.canonicalBytes_eq_iff b).mp messages
        rwa [← signatures] at fields)
      (p.sign C key) q rfl rfl binds carried
  · intro key s t binds carried
    exact verifyMessage_iff_untouched correct key (·.coordinatorPubkey) (·.signature)
      (·.canonicalBytes)
      (fun a b signatures messages => by
        have fields := (a.canonicalBytes_eq_iff b).mp messages
        rwa [← signatures] at fields)
      (s.sign C key) t rfl rfl binds carried
  · intro key r s binds carried
    exact verifyMessage_iff_untouched correct key (·.primaryPubkey) (·.signature) (·.canonicalBytes)
      (fun a b signatures messages => by
        have fields := (a.canonicalBytes_eq_iff b).mp messages
        rwa [← signatures] at fields)
      (r.sign C key) s rfl rfl binds carried

def sampleProof : ProofOfInference where
  requestId := ⟨Vector.replicate 16 0⟩
  sessionId := ⟨Vector.replicate 16 0⟩
  nodePeerId := ⟨"12D3KooWPeerNode1"⟩
  clientAddress := "client-abc"
  modelId := "qwen-72b"
  inputTokens := 128
  outputTokens := 256
  latencyMs := 420
  pricePaidNanox := ⟨1000⟩
  timestamp := 1700000000
  inputHash := Vector.replicate 32 1
  outputHash := Vector.replicate 32 2
  settlementId := "free"
  escrowTxId := none
  nodePubkey := Vector.replicate 32 0
  signature := []

theorem canonicalBytes_commit_sample :
    let C := Primitives.marking sampleProof.canonicalBytes
    let signed := sampleProof.sign C (Vector.replicate 32 0)
    signed.verify C = .ok () ∧ { signed with outputTokens := 257 }.verify C ≠ .ok () := by
  intro C signed
  have commits := (canonicalBytes_commit_to_signed_fields C
    (Primitives.marking_correct _)).2.2.2.1 (Vector.replicate 32 0) sampleProof
  have binds : C.Binds (Vector.replicate 32 0) signed.canonicalBytes := Primitives.marking_binds _ _
  refine ⟨(commits signed binds rfl).mpr rfl, ?_⟩
  intro accepted
  have same := (commits { signed with outputTokens := 257 } binds rfl).mp accepted
  exact absurd (congrArg ProofOfInference.outputTokens same) (by decide)

end Protocol
