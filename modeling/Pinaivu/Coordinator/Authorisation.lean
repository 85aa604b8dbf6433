import Pinaivu.Coordinator.Completion

namespace Coordinator

open Protocol Crypto Async

variable {C : Primitives} {X : Externals}

def dispatchedTokens (trace : List (World C × Label)) : List DispatchToken :=
  trace.filterMap fun step =>
    match step.2 with
    | .command (.dispatchInference _ dispatch _) _ => some dispatch.dispatchToken
    | _ => none

def Completes (w w' : World C) (ack : CompletionAck) : Prop :=
  (w.loop.inFlight ack.requestId ≠ none ∧ w'.loop.inFlight ack.requestId = none) ∨
    ∃ receipt next, w'.tasks .eventLoop = .call (.putReceipt receipt) next ∧ receipt.payouts ≠ []

def Authorised (keyOf : NodePeerId → Option PublicKey) (tokens : List DispatchToken) (self : EventLoop C)
    (ack : CompletionAck) : Prop :=
  (∃ token ∈ tokens, token.requestId = ack.requestId ∧
    keyOf token.primaryPeerId = some ack.primaryPubkey) ∧
  ∀ proof ∈ paidProofs ack (self.addressesFor ack.requestId),
    keyOf proof.nodePeerId = some proof.nodePubkey

/-- Whoever signed a verified ack of a request in flight is the primary of its token, and whoever
    signed a proof of a recorded bidder in it is that bidder. -/
def SignedByParties (signed : PublicKey → List UInt8 → Prop) (keyOf : NodePeerId → Option PublicKey)
    (tokens : List DispatchToken) (self : EventLoop C) (ack : CompletionAck) : Prop :=
  Verified C ack → (self.inFlight ack.requestId).isSome →
    (∀ holder, signed holder (ack.canonicalBytes C) →
      ∃ token ∈ tokens, token.requestId = ack.requestId ∧ keyOf token.primaryPeerId = some holder) ∧
    ∀ proof ∈ paidProofs ack (self.addressesFor ack.requestId),
      ∀ holder, signed holder proof.canonicalBytes → keyOf proof.nodePeerId = some holder

theorem inFlight_of_payouts {self : EventLoop C} {sender : PeerId} {ack : CompletionAck} {nowMs : UInt64}
    {receipt : RoutingReceipt} (signed : self.receiptFor sender ack nowMs = some receipt)
    (pays : receipt.payouts ≠ []) : (self.inFlight ack.requestId).isSome := by
  apply inFlight_of_computePayouts
  intro none
  rw [(receiptFor_eq_some signed).2.2, none] at pays
  exact pays rfl

theorem verified_of_completes {w w' : World C} {sender : PeerId} {ack : CompletionAck} {channel : Nat}
    {nowMs : UInt64} (step : Step X w (.event (.completion sender ack channel nowMs)) w')
    (completes : Completes w w' ack) : Verified C ack ∧ (w.loop.inFlight ack.requestId).isSome := by
  cases step with
  | event idle =>
    by_cases verified : Verified C ack
    · refine ⟨verified, ?_⟩
      rcases completes with ⟨present, _⟩ | ⟨receipt, next, putting, pays⟩
      · exact Option.isSome_iff_ne_none.mpr present
      · simp only [World.setTask, Function.update_self, EventLoop.handleEvent,
          handleCompletionAck_verified verified] at putting
        change w.loop.storeReceipt X channel _ _ (w.loop.receiptFor sender ack nowMs) = _ at putting
        cases signed : w.loop.receiptFor sender ack nowMs with
        | none =>
          rw [signed] at putting
          cases putting
        | some stored =>
          rw [signed] at putting
          cases putting
          exact inFlight_of_payouts signed pays
    · obtain ⟨reason, shape⟩ :=
        handleCompletionAck_unverified (X := X) verified w.loop sender channel nowMs
      rcases completes with ⟨present, gone⟩ | ⟨receipt, next, putting, _⟩
      · simp only [World.setTask, EventLoop.handleEvent, shape] at gone
        exact absurd gone present
      · simp only [World.setTask, Function.update_self, EventLoop.handleEvent, shape] at putting
        cases putting

/-- In every run in which the signers of the acks that matter keep to their own names, whatever
    completes a request is authorised: both checks bind the keys in the ack to those signers. -/
theorem completions_authorised (X : Externals) (start w : World C) (trace : List (World C × Label))
    (run : Runs X start trace w) (signed : PublicKey → List UInt8 → Prop) (ideal : C.Unforgeable signed)
    (keyOf : NodePeerId → Option PublicKey)
    (parties : ∀ before m sender ack channel nowMs after,
      trace = before ++ (m, .event (.completion sender ack channel nowMs)) :: after →
      SignedByParties signed keyOf (dispatchedTokens before) m.loop ack) :
    ∀ before m sender ack channel nowMs after,
      trace = before ++ (m, .event (.completion sender ack channel nowMs)) :: after →
      ∃ n, Step X m (.event (.completion sender ack channel nowMs)) n ∧ Run (Step X) n after w ∧
        (Completes m n ack → Authorised keyOf (dispatchedTokens before) m.loop ack) := by
  intro before m sender ack channel nowMs after shape
  obtain ⟨_, n, step, rest⟩ := run.split shape
  refine ⟨n, step, rest, ?_⟩
  intro completes
  obtain ⟨verified, present⟩ := verified_of_completes step completes
  obtain ⟨primary, proofs⟩ := parties before m sender ack channel nowMs after shape verified present
  constructor
  · exact primary ack.primaryPubkey (verifyMessage_holder ideal verified.1)
  · intro proof member
    have inside : proof ∈ ack.proofs := (List.mem_filter.mp member).1
    have accepted := (ack.verifyAllProofs_ok_iff C).mp verified.2 proof inside
    exact proofs proof member proof.nodePubkey (verifyMessage_holder ideal accepted)

theorem dispatchedTokens_append (before after : List (World C × Label)) :
    dispatchedTokens (before ++ after) = dispatchedTokens before ++ dispatchedTokens after :=
  List.filterMap_append

theorem dispatchedTokens_quiet {trace : List (World C × Label)} (quiet : ∀ step ∈ trace, step.2.quiet) :
    dispatchedTokens trace = [] := by
  rw [dispatchedTokens, List.filterMap_eq_nil_iff]
  intro step member
  have silent := quiet step member
  split
  · rename_i shape
    rw [shape] at silent
    cases silent
  · rfl

def Label.isEvent : Label → Bool
  | .event _ => true
  | _ => false

theorem Label.isEvent_of_quiet {label : Label} (silent : label.quiet) : label.isEvent = false := by
  cases label with
  | event e => cases silent
  | _ => rfl

theorem single_event {before after before' after' : List (World C × Label)} {x y : World C × Label}
    (early : ∀ step ∈ before, step.2.isEvent = false) (late : ∀ step ∈ after, step.2.isEvent = false)
    (event : y.2.isEvent = true) (same : before ++ x :: after = before' ++ y :: after') :
    before' = before ∧ y = x := by
  induction before generalizing before' with
  | nil =>
    cases before' with
    | nil =>
      rw [List.nil_append, List.nil_append, List.cons.injEq] at same
      exact ⟨rfl, same.1.symm⟩
    | cons first rest =>
      rw [List.nil_append, List.cons_append, List.cons.injEq] at same
      have inside : y ∈ after := by simp [same.2]
      rw [late y inside] at event
      cases event
  | cons first before ih =>
    cases before' with
    | nil =>
      rw [List.nil_append, List.cons_append, List.cons.injEq] at same
      rw [← same.1, early first (by simp)] at event
      cases event
    | cons other rest =>
      rw [List.cons_append, List.cons_append, List.cons.injEq] at same
      have smaller := ih (fun step member => early step (List.mem_cons_of_mem _ member)) same.2
      exact ⟨by rw [same.1, smaller.1], smaller.2⟩

theorem reach_completed (X : Externals) (C : Primitives) (key : C.SigningKey) (token : DispatchToken)
    (sender : PeerId) {ack : CompletionAck} (verified : Verified C ack)
    (short : ack.proofs.length < 2 ^ 31) :
    ∃ before m after w, Runs X (World.start (EventLoop.new key false false) (.inMemory fun _ => none) 60000)
        (before ++ (m, .event (.completion sender ack 0 1700000010000)) :: after) w ∧
      publishedIds (before ++ (m, .event (.completion sender ack 0 1700000010000)) :: after) =
        [sampleRequest.requestId] ∧
      (∀ step ∈ before, step.2.isEvent = false) ∧ (∀ step ∈ after, step.2.isEvent = false) ∧
      dispatchedTokens before = [token] ∧
      m.loop.inFlight sampleRequest.requestId = some (flightOf sampleRequest sampleAddresses) := by
  obtain ⟨first, m, left, idle, drained, noPool, published, quiet, flight, _⟩ := reach_sample X C key false false
    (.inMemory fun _ => none)
  let dispatch := MeshCommand.dispatchInference ⟨"12D3KooWPeerNode1"⟩ ⟨token, "", "hello", none⟩
    ⟨sampleRequest.requestId, 1⟩
  let dispatched := m.handled dispatch m.swarmAnswers
  have middle : Runs X m _ dispatched := reach_handled X m idle drained dispatch
  have waiting : dispatched.tasks .eventLoop = .done () := by
    simp only [dispatched, World.handled, World.setTask, Function.update_self]
    rfl
  obtain ⟨receipt, signed⟩ := receiptFor_isSome dispatched.loop sender ack 1700000010000 short
  obtain ⟨after, w, right, silent, unpublished, _⟩ :=
    reach_accepted X dispatched waiting noPool verified 0 signed
  refine ⟨_, dispatched, after, w, (left.append middle).append right, ?_, ?_, ?_, ?_, flight⟩
  · rw [publishedIds_append, publishedIds_append, published, publishedIds_event, unpublished]
    rfl
  · intro step member
    rcases List.mem_append.mp member with inside | inside
    · exact Label.isEvent_of_quiet (quiet step inside)
    · simp only [List.mem_cons, List.not_mem_nil, or_false] at inside
      rcases inside with rfl | rfl <;> rfl
  · intro step member
    exact Label.isEvent_of_quiet (silent step member)
  · rw [dispatchedTokens_append, dispatchedTokens_quiet quiet]
    rfl

def ackUnder (key : PublicKey) : CompletionAck where
  requestId := sampleRequest.requestId
  proofs := [{ sampleProof with nodePubkey := key, signature := (Vector.replicate 64 0).toList }]
  aggregatedOutputHash := Vector.replicate 32 9
  primaryPubkey := key
  signature := (Vector.replicate 64 0).toList

def logUnder (key : PublicKey) : List (PublicKey × List UInt8) :=
  (key, (ackUnder key).canonicalBytes (Primitives.logged [])) ::
    (ackUnder key).proofs.map fun proof => (key, proof.canonicalBytes)

theorem ackUnder_verified (key : PublicKey) : Verified (Primitives.logged (logUnder key)) (ackUnder key) := by
  refine ⟨verifyMessage_logged List.mem_cons_self _, ?_⟩
  rw [CompletionAck.verifyAllProofs_ok_iff]
  intro proof member
  have logged : (key, proof.canonicalBytes) ∈ logUnder key :=
    List.mem_cons_of_mem _ (List.mem_map_of_mem member)
  simp only [ackUnder, List.mem_singleton] at member
  subst proof
  exact verifyMessage_logged logged _

def bidderKey : NodePeerId → Option PublicKey := fun peer =>
  if peer.value = "12D3KooWPeerNode1" then some (Vector.replicate 32 1) else none

def tokenFor (peer : NodePeerId) : DispatchToken where
  requestId := sampleRequest.requestId
  sessionId := sampleRequest.sessionId
  clientPubkey := Vector.replicate 32 3
  primaryPeerId := peer
  settlementId := defaultSettlementId
  maxPriceNanox := ⟨1000⟩
  issuedAtMs := 1700000000000
  deadlineMs := 1700000060000
  coordinatorPubkey := Vector.replicate 32 0
  nodeX25519Pubkey := none
  signature := []

theorem logUnder_holder {key holder : PublicKey} {message : List UInt8}
    (member : (holder, message) ∈ logUnder key) : holder = key := by
  simp only [logUnder, List.mem_cons, List.mem_map, Prod.mk.injEq] at member
  rcases member with ⟨same, _⟩ | ⟨_, _, same, _⟩
  · exact same
  · exact same.symm

/-- A stranger signs, under its own key, an ack and a proof in the name of the bidder the token
    names; the coordinator consumes the request and signs the payout. -/
theorem stranger_completes_request :
    let C := Primitives.logged (logUnder (Vector.replicate 32 7))
    let X := Externals.serde (fun _ => none) fun text => .ok ⟨text⟩
    C.Unforgeable (fun holder message => (holder, message) ∈ logUnder (Vector.replicate 32 7)) ∧
    ∃ trace w before m sender ack channel nowMs after n,
      Runs X (World.start (EventLoop.new (C := C) (Vector.replicate 32 0) false false)
        (.inMemory fun _ => none) 60000) trace w ∧
      (publishedIds trace).Nodup ∧
      trace = before ++ (m, .event (.completion sender ack channel nowMs)) :: after ∧
      Step X m (.event (.completion sender ack channel nowMs)) n ∧
      Completes m n ack ∧ dispatchedTokens before = [tokenFor ⟨"12D3KooWPeerNode1"⟩] ∧
      ¬ Authorised bidderKey (dispatchedTokens before) m.loop ack := by
  intro C X
  refine ⟨Primitives.logged_unforgeable _, ?_⟩
  have verified := ackUnder_verified (Vector.replicate 32 7)
  obtain ⟨before, m, after, w, run, published, _, _, tokens, flight⟩ := reach_completed X C
    (Vector.replicate 32 0) (tokenFor ⟨"12D3KooWPeerNode1"⟩) ⟨"12D3KooWStranger"⟩ verified
    (show 1 < 2 ^ 31 by decide)
  obtain ⟨_, n, step, _⟩ := run.split rfl
  refine ⟨_, w, before, m, _, _, _, _, after, n, run, ?_, rfl, step, ?_, tokens, ?_⟩
  · rw [published]
    exact List.nodup_singleton _
  · left
    constructor
    · change m.loop.inFlight sampleRequest.requestId ≠ none
      rw [flight]
      simp
    · apply consumes_clears step
      refine ⟨_, _, _, _, rfl, rfl, verified, ?_⟩
      change (m.loop.inFlight sampleRequest.requestId).isSome
      rw [flight]
      rfl
  · intro given
    obtain ⟨⟨token, member, _, key⟩, _⟩ := given
    rw [tokens, List.mem_singleton] at member
    subst token
    exact absurd key (by decide)

theorem bidder_completes_request :
    let C := Primitives.logged (logUnder (Vector.replicate 32 1))
    let X := Externals.serde (fun _ => none) fun text => .ok ⟨text⟩
    ∃ trace w before m sender ack channel nowMs after,
      Runs X (World.start (EventLoop.new (C := C) (Vector.replicate 32 0) false false)
        (.inMemory fun _ => none) 60000) trace w ∧
      trace = before ++ (m, .event (.completion sender ack channel nowMs)) :: after ∧
      Consumes sampleRequest.requestId (m, .event (.completion sender ack channel nowMs)) ∧
      Authorised bidderKey (dispatchedTokens before) m.loop ack := by
  intro C X
  have verified := ackUnder_verified (Vector.replicate 32 1)
  obtain ⟨before, m, after, w, run, _, early, late, tokens, flight⟩ := reach_completed X C
    (Vector.replicate 32 0) (tokenFor ⟨"12D3KooWPeerNode1"⟩) ⟨"12D3KooWPeerNode1"⟩ verified
    (show 1 < 2 ^ 31 by decide)
  have consumes : Consumes sampleRequest.requestId (m, Label.event (.completion ⟨"12D3KooWPeerNode1"⟩
      (ackUnder (Vector.replicate 32 1)) 0 1700000010000)) := by
    refine ⟨_, _, _, _, rfl, rfl, verified, ?_⟩
    rw [flight]
    rfl
  obtain ⟨n, step, _, authorised⟩ := completions_authorised X _ w _ run
    (fun holder message => (holder, message) ∈ logUnder (Vector.replicate 32 1))
    (Primitives.logged_unforgeable _) bidderKey (by
      intro before' m' sender ack channel nowMs after' shape _ _
      obtain ⟨rfl, same⟩ := single_event early late rfl shape
      rw [Prod.mk.injEq, Label.event.injEq, Event.completion.injEq] at same
      rcases same with ⟨rfl, _, rfl, _, _⟩
      constructor
      · intro holder logged
        refine ⟨_, by rw [tokens]; exact List.mem_singleton_self _, rfl, ?_⟩
        rw [logUnder_holder logged]
        rfl
      · intro proof paid holder logged
        have inside : proof ∈ (ackUnder (Vector.replicate 32 1)).proofs := (List.mem_filter.mp paid).1
        simp only [ackUnder, List.mem_singleton] at inside
        subst proof
        rw [logUnder_holder logged]
        rfl) before m _ _ _ _ after rfl
  refine ⟨_, w, before, m, _, _, _, _, after, run, rfl, consumes, authorised (.inl ⟨?_, ?_⟩)⟩
  · change m.loop.inFlight sampleRequest.requestId ≠ none
    rw [flight]
    simp
  · exact consumes_clears step consumes

end Coordinator
