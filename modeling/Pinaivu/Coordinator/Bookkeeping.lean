import Pinaivu.Coordinator.CrossTalk
import Pinaivu.Coordinator.NoTrace

namespace Coordinator

open Protocol Crypto Async

variable {C : Primitives} {X : Externals} {loop : EventLoop C} {archive : ReceiptArchive} {ttl : UInt64}
  {w m n : World C} {trace : List (World C × Label)} {label : Label}

def Acks (C : Primitives) (r : RequestId) (label : Label) : Prop :=
  ∃ sender ack channel nowMs, label = .event (.completion sender ack channel nowMs) ∧ ack.requestId = r ∧
    Verified C ack

/-- The request has been published, and no verified ack for it has been handled since. -/
def Unacked (trace : List (World C × Label)) (r : RequestId) : Prop :=
  Since (fun step => step.2.publishes = some r) (fun step => Acks C r step.2) trace

theorem publishes_inFlight {r : RequestId} (step : Step X m label n) (publishes : label.publishes = some r) :
    n.loop.inFlight r ≠ none := by
  cases step with
  | @command command rest swarm idle queued fresh outFresh =>
    cases command with
    | publish request tx =>
      simp only [Label.publishes] at publishes
      split at publishes
      · rename_i published
        cases publishes
        simp [World.setTask, EventLoop.handleCommand, EventLoop.publishRequest, published]
      · cases publishes
    | _ => cases publishes
  | _ => cases publishes

theorem acks_inFlight {r : RequestId} (step : Step X m label n) (acks : Acks C r label) :
    n.loop.inFlight r = none := by
  obtain ⟨sender, ack, channel, nowMs, rfl, request, verified⟩ := acks
  cases step with
  | event idle =>
    simp only [World.setTask, EventLoop.handleEvent, handleCompletionAck_loop, if_pos verified]
    rw [request, Function.update_self]

theorem inFlight_iff_unacked (empty : ∀ r, loop.inFlight r = none)
    (run : Runs X (World.start loop archive ttl) trace w) (r : RequestId) :
    w.loop.inFlight r ≠ none ↔ Unacked trace r := by
  refine run.history (I := fun trace w => w.loop.inFlight r ≠ none ↔ Unacked trace r) ?_ ?_
  · exact ⟨fun present => absurd (empty r) present, fun unacked => absurd unacked not_since_nil⟩
  · intro before m label n _ _ step kept
    unfold Unacked at kept ⊢
    rw [since_snoc, ← kept]
    constructor
    · intro present
      rcases step_inFlight step r with same | published | ⟨_, _, _, rfl, before, _⟩ | ⟨_, _, _, _, _, _, _, gone⟩
      · refine .inr ⟨same ▸ present, fun acks => present (acks_inFlight step acks)⟩
      · exact .inl published
      · exact .inr ⟨by rw [before]; nofun, by rintro ⟨_, _, _, _, shape, _⟩; cases shape⟩
      · exact absurd gone present
    · intro given
      rcases given with published | ⟨present, unacked⟩
      · exact publishes_inFlight step published
      · rcases step_inFlight step r with same | published | ⟨_, _, _, _, _, after⟩ | ⟨_, _, _, _, shape, own, verified, _⟩
        · rwa [same]
        · exact publishes_inFlight step published
        · rw [after]
          nofun
        · exact absurd ⟨_, _, _, _, shape, own, verified⟩ unacked

/-- A call that has sent a dispatch does nothing else until it has read the result. -/
def owing : Typestate Call Answer (Option OneshotId) where
  allowed
    | some out, op => op = .awaitInference out
    | none, _ => True
  advance
    | none, .sendCommand (.dispatchInference _ _ out), true => some out
    | _, _, _ => none

def owingTracking (C : Primitives) : Tracking C (Option OneshotId) where
  typestate := owing
  ends state := state = none
  fresh _ _ := none

theorem owes_nothing {α : Type} {task : Task α} (sat : task.Sat (fun op => op.plain) (fun _ _ => True) fun _ => True) :
    task.Obeys owing (fun s _ => s = none) none := by
  refine sat.obeys (fun op plain => ⟨trivial, fun answer => ?_⟩) fun _ _ => rfl
  cases op with
  | sendCommand command => cases plain
  | _ => rfl

theorem dispatchInference_owing (peer : PeerId) (dispatch : InferenceDispatch) :
    (dispatchInference peer dispatch).Obeys owing (fun s _ => s = none) none := by
  refine ⟨trivial, fun out => ⟨trivial, fun sent => ?_⟩⟩
  cases sent with
  | false => rfl
  | true => exact ⟨rfl, fun _ => rfl⟩

theorem dispatchToWinner_owing (key : C.SigningKey) (req : ChatCompletionRequest) (r : RequestId)
    (sessionId : SessionId) (message : String) (winner : InferenceBid) :
    (dispatchToWinner X C key req r sessionId message winner).Obeys owing (fun s _ => s = none) none := by
  unfold dispatchToWinner
  cases decodeHexPubkey req.clientPubkeyHex with
  | error e => rfl
  | ok clientPubkey =>
    refine ⟨trivial, fun nowMs => ?_⟩
    apply (owes_nothing (sessionKeyOr_sat (by rfl) req.sessionKey)).seq
    intro s sessionKey same
    subst same
    cases X.parsePeerId winner.nodePeerId.value with
    | error e => rfl
    | ok peer =>
      apply (dispatchInference_owing peer _).seq
      intro s reply same
      subst same
      cases reply with
      | error e => rfl
      | ok reply =>
        dsimp only
        cases reply.error <;> rfl

theorem runAuction_owing (key : C.SigningKey) (pool : Bool) (req : ChatCompletionRequest) (request : InferenceRequest)
    (message : String) :
    (runAuction X C key pool req request message).Obeys owing (fun s _ => s = none) none := by
  refine ⟨trivial, fun tx => ⟨trivial, fun sent => ?_⟩⟩
  cases sent with
  | false => rfl
  | true =>
    refine ⟨trivial, fun joined => ?_⟩
    cases joined with
    | error e => rfl
    | ok rx =>
      refine ⟨trivial, fun bids => ?_⟩
      apply (owes_nothing (fetchWarmthMap_sat (by rfl) pool)).seq
      intro s warmth same
      subst same
      cases pickWinnerWithWarmth bids warmth with
      | none => rfl
      | some winner => exact ⟨trivial, fun _ => dispatchToWinner_owing key req _ _ message winner⟩

theorem serveChat_owing (key : C.SigningKey) (pool : Bool) (req : ChatCompletionRequest) :
    (serveChat X C key pool req).Obeys owing (fun s _ => s = none) none := by
  have completed : (chatCompletions X C key pool req).Obeys owing (fun s _ => s = none) none := by
    refine ⟨trivial, fun r => ?_⟩
    apply (owes_nothing (sessionOf_sat (by rfl) req.sessionId)).seq
    intro s session same
    subst same
    dsimp only
    cases decryptMessagesIfEncrypted X req >>= newUserMessage with
    | error e => rfl
    | ok message => exact runAuction_owing key pool req _ message
  apply completed.seq
  intro s result same
  subst same
  exact ⟨trivial, fun _ => rfl⟩

def owed (k : Nat) (trace : List (World C × Label)) : Option OneshotId :=
  (owingTracking C).state (.chat k) none trace

theorem owed_obeyed (run : Runs X (World.start loop archive ttl) trace w) (k : Nat) :
    (owingTracking C).Obeyed (w.tasks (.chat k)) (owed k trace) := by
  apply (owingTracking C).obeyed run rfl
  intro m label task begun
  cases begun with
  | serve k req => exact serveChat_owing _ _ req
  | drop k => rfl

def Accounted (trace : List (World C × Label)) : Prop :=
  ∀ x k peer dispatch out,
    (x, Label.call (.chat k) (.sendCommand (.dispatchInference peer dispatch out)) true) ∈ trace →
    owed k trace = some out ∨ ∃ y result, (y, Label.call (.chat k) (.awaitInference out) result) ∈ trace

theorem accounted (run : Runs X (World.start loop archive ttl) trace w)
    (uncancelled : ∀ step ∈ trace, ∀ k, step.2 ≠ .cancel k) : Accounted trace := by
  refine run.history (I := fun trace _ => Accounted trace) (fun _ _ _ _ _ => nofun) ?_
  intro before m label n run shape step kept x k peer dispatch out member
  have obeyed := owed_obeyed run k
  have next : owed k (before ++ [(m, label)]) = (owingTracking C).next (.chat k) (owed k before) (m, label) :=
    Tracking.state_snoc _ _ _ _ _
  rw [next]
  rcases List.mem_append.mp member with inside | last
  · rcases kept x k peer dispatch out inside with waiting | ⟨y, result, read⟩
    · rcases step_starts step (.chat k) with ⟨calls, ⟨starts, _⟩ | ⟨starts, _⟩⟩ | ⟨op, rest, answer, _, rfl, _⟩
      · rw [Tracking.next_other _ _ _ starts calls]
        exact .inl waiting
      · cases step with
        | request free =>
          cases starts
          rw [free] at obeyed
          exact absurd (waiting.symm.trans obeyed) nofun
        | cancel k' => exact absurd rfl (uncancelled _ (Run.last_mem shape) k')
        | _ => cases starts
      · have allowed := (owingTracking C).allowed obeyed step
        rw [waiting] at allowed
        change op = .awaitInference out at allowed
        subst allowed
        exact .inr ⟨m, answer, List.mem_append_right _ (List.mem_singleton.mpr rfl)⟩
    · exact .inr ⟨y, result, List.mem_append_left _ read⟩
  · cases List.mem_singleton.mp last
    have allowed := (owingTracking C).allowed obeyed step
    rw [Tracking.next_call]
    generalize owed k before = state at allowed
    cases state with
    | none => exact .inl rfl
    | some other => cases allowed

def MeshCommand.answersOn : MeshCommand → Option OneshotId
  | .dispatchInference _ _ out => some out
  | _ => none

def Label.handlesOn (label : Label) : Option OneshotId := label.takes.bind MeshCommand.answersOn

theorem Label.dispatchesOn_eq_bind (label : Label) : label.dispatchesOn = label.sends.bind MeshCommand.answersOn := by
  unfold Label.dispatchesOn
  cases label.sends with
  | none => rfl
  | some command => cases command <;> rfl

theorem handled_once (run : Runs X (World.start loop archive ttl) trace w)
    (handle : ∀ step ∈ trace, step.2.handleOnly) : (trace.filterMap fun step => step.2.handlesOn).Nodup := by
  have sent := dispatched_once run handle
  simp only [Label.dispatchesOn_eq_bind] at sent
  rw [← List.filterMap_filterMap] at sent
  change ((sentCommands trace).filterMap MeshCommand.answersOn).Nodup at sent
  rw [commands_in_order run, List.filterMap_append] at sent
  have handled := sent.of_append_left
  rwa [handledCommands, List.filterMap_filterMap] at handled

theorem settled_of_answered (run : Runs X (World.start loop archive ttl) trace w)
    (handle : ∀ step ∈ trace, step.2.handleOnly) {peer : PeerId} {dispatch : InferenceDispatch} {out : OneshotId}
    {result : Except String InferenceReply} (answered : Answered trace peer dispatch out result) (outId : Nat) :
    ¬ Unanswered trace outId out := by
  intro given
  obtain ⟨before, x, other, another, swarm, after, shape, rfl, unsettled⟩ := given
  obtain ⟨before', y, swarm', middle, z, event, rest, shape', outcome, _⟩ := answered
  obtain ⟨_, same, tail⟩ := filterMap_place (handled_once run handle) shape shape' (b := out) rfl rfl
  cases same
  refine unsettled (z, .event event) ?_ result outcome
  rw [tail]
  exact List.mem_append_right _ List.mem_cons_self

theorem pending_cleared (clear : ∀ outId, loop.pendingInference outId = none)
    (run : Runs X (World.start loop archive ttl) trace w) (handle : ∀ step ∈ trace, step.2.handleOnly)
    (uncancelled : ∀ step ∈ trace, ∀ k, step.2 ≠ .cancel k) (returned : ∀ k, w.tasks (.chat k) = .done ())
    (alive : w.loopGone = false) (outId : Nat) : w.loop.pendingInference outId = none := by
  cases found : w.loop.pendingInference outId with
  | none => rfl
  | some out =>
    have unanswered := (pending_iff_unanswered clear run outId out).mp found
    obtain ⟨before, x, peer, dispatch, swarm, after, shape, _⟩ := id unanswered
    have handled : (x, Label.command (.dispatchInference peer dispatch out) swarm) ∈ trace := by
      rw [shape]
      exact List.mem_append_right _ List.mem_cons_self
    obtain ⟨⟨y, label⟩, member, sends⟩ := List.mem_filterMap.mp (sent_of_handled run handled)
    obtain ⟨early, late, place⟩ := List.append_of_mem member
    obtain ⟨first, n, step, _⟩ := run.split place
    obtain ⟨k, r, tx, bids, rfl, _⟩ := dispatching_phase first step (handle _ member) sends
    have idle := owed_obeyed run k
    rw [returned k] at idle
    rcases accounted run uncancelled y k peer dispatch out member with waiting | ⟨z, result, read⟩
    · exact absurd (waiting.symm.trans idle) nofun
    · obtain ⟨early, late, place⟩ := List.append_of_mem read
      obtain ⟨first, n, step, rest⟩ := run.split place
      have lasting : z.loopGone = true → w.loopGone = true := fun gone =>
        rest.invariant (step_loopGone step gone) fun _ _ _ _ later => step_loopGone later
      cases step with
      | call awaiting answered =>
        cases performed answered with
        | silent quiet => cases quiet
        | result _ _ ready =>
          rcases ready with replied | ⟨gone, _⟩
          · obtain ⟨other, another, answered⟩ := (replies_answered clear first).replies out result replied
            have answered : Answered trace other another out result :=
              answered.mono (place ▸ List.prefix_append _ _)
            exact absurd unanswered (settled_of_answered run handle answered outId)
          · exact absurd (alive.symm.trans (lasting gone)) nofun

theorem unstarted_idle {id : TaskId} (run : Runs X m trace w) (idle : m.tasks id = .done ())
    (still : ∀ step ∈ trace, step.2.starts ≠ some id) : w.tasks id = .done () := by
  refine run.invariant (I := fun w => w.tasks id = .done ()) idle ?_
  intro x label y member step kept
  rcases step_starts step id with ⟨_, ⟨_, same⟩ | ⟨starts, _⟩⟩ | ⟨_, _, _, _, _, waiting, _⟩
  · rw [same, kept]
  · exact absurd starts (still _ member)
  · rw [kept] at waiting
    cases waiting

/-- Once every call has returned, `pending_inference` is empty, and `in_flight` holds the requests that were
    published and have had no verified ack since. -/
theorem tables_after_return (X : Externals) (key : C.SigningKey) (pgPool settlementTx : Bool)
    (archive : ReceiptArchive) (ttl : UInt64) (w : World C) (trace : List (World C × Label))
    (run : Runs X (World.start (EventLoop.new key pgPool settlementTx) archive ttl) trace w)
    (handle : ∀ step ∈ trace, step.2.handleOnly) (uncancelled : ∀ step ∈ trace, ∀ k, step.2 ≠ .cancel k)
    (returned : ∀ k, w.tasks (.chat k) = .done ()) (alive : w.loopGone = false) :
    (∀ outId, w.loop.pendingInference outId = none) ∧
      ∀ r, w.loop.inFlight r ≠ none ↔ Unacked trace r :=
  ⟨pending_cleared (fun _ => rfl) run handle uncancelled returned alive,
    inFlight_iff_unacked (fun _ => rfl) run⟩

theorem reach_unbid (X : Externals) (w : World C) (k : Nat) {key : C.SigningKey} {r : RequestId}
    (free : w.tasks (.chat k) = .done ()) (idle : w.tasks .eventLoop = .done ()) (drained : w.commands = [])
    (heard : w.abandoned ⟨r, w.serial⟩ = false) (channel : w.bids ⟨r, w.serial + 1⟩ = ⟨[], [], true⟩)
    (options : w.loop.enclaveKey = key ∧ w.loop.pgPool = false) :
    ∃ trace w', Runs X w trace w' ∧ (∀ step ∈ trace, step.2.quiet ∧ step.2.handleOnly) ∧ publishedIds trace = [r] ∧
      Aside k r w w' ∧ w'.loop.pendingInference = w.loop.pendingInference ∧ w'.loop.pgPool = w.loop.pgPool ∧
      w'.tasks .eventLoop = .done () ∧ w'.tasks (.chat k) = .done () ∧ w'.loop.inFlight r ≠ none ∧
      w'.loop.bidSubscribers r ≠ none := by
  have asks : Asks X key sampleChat r ⟨r, w.serial⟩ ⟨r, w.serial + 1⟩ _ := ⟨_, rfl, _, rfl, _, rfl, _, rfl, rfl⟩
  obtain ⟨trace, x, run, calm, published, aside, kept, idle', _, _, opened, subscribed, present, pool, collecting⟩ :=
    reach_called X w k free idle drained heard channel options asks
  let rx : BidChannelId := ⟨r, w.serial + 1⟩
  let closed : World C := (x.closeBids rx).setTask (.chat k)
    (call (.httpResponse (.error (.noNodes "auction closed with no bids"))))
  let returned : World C := closed.setTask (.chat k) (.done ())
  have empty : x.perform X (.collectBids rx) [] = some (x.closeBids rx) := by
    refine if_pos ?_
    rw [opened]
  have collects : Step X x (.call (.chat k) (.collectBids rx) []) closed := .call collecting empty
  have answers : Step X closed (.call (.chat k)
      (.httpResponse (.error (.noNodes "auction closed with no bids"))) ()) returned :=
    .call (World.setTask_same _ _ _) rfl
  have leaves : Aside k r x returned := by
    refine ⟨fun j apart => ?_, rfl, fun other apart => ?_, fun _ _ => rfl, rfl, rfl⟩
    · have other : TaskId.chat j ≠ .chat k := fun same => apart (TaskId.chat.inj same)
      rw [World.setTask_other other, World.setTask_other other]
      rfl
    · have elsewhere : other ≠ rx := fun same => apart (same ▸ rfl)
      exact Function.update_of_ne elsewhere _ _
  refine ⟨_, returned, run.append (.cons collects (.one answers)), ?_, ?_, aside.trans leaves, kept, pool, ?_,
    World.setTask_same _ _ _, ?_, ?_⟩
  · simp only [List.mem_append, List.mem_cons, List.not_mem_nil, or_false]
    intro step given
    rcases given with inside | rfl | rfl
    · exact calm step inside
    · exact ⟨rfl, trivial⟩
    · exact ⟨rfl, trivial⟩
  · rw [publishedIds_append, published]
    rfl
  · have apart : TaskId.eventLoop ≠ .chat k := by simp
    rw [World.setTask_other apart, World.setTask_other apart]
    exact idle'
  · change x.loop.inFlight r ≠ none
    rw [present]
    exact Option.some_ne_none _
  · change x.loop.bidSubscribers r ≠ none
    rw [subscribed]
    exact Option.some_ne_none _

theorem reach_acked_beside_unbid :
    let C := Primitives.marking []
    let X := Externals.serde readSampleBid fun text => .ok ⟨text⟩
    ∃ trace w, Runs X (World.start (EventLoop.new (C := C) (Vector.replicate 32 0) false false)
        (.inMemory fun _ => none) 60000) trace w ∧
      (∀ step ∈ trace, step.2.handleOnly ∧ ∀ k, step.2 ≠ .cancel k) ∧
      (∃ m peer dispatch out swarm, (m, Label.command (.dispatchInference peer dispatch out) swarm) ∈ trace ∧
        dispatch.dispatchToken.requestId = sampleRequest.requestId) ∧
      (∀ k, w.tasks (.chat k) = .done ()) ∧ w.loopGone = false ∧ w.loop.inFlight sampleRequest.requestId = none ∧
      w.loop.inFlight otherRequestId ≠ none := by
  intro C X
  have correct : C.Correct := Primitives.marking_correct _
  obtain ⟨before, m, dispatched, answered, reached⟩ :=
    reach_dispatched X (C := C) (Vector.replicate 32 0) sampleBid (bidMessage "12D3KooWPeerNode1") rfl (if_pos rfl) rfl
  have apart : otherRequestId ≠ sampleRequest.requestId := by decide
  obtain ⟨during, x, second, calm, _, aside', kept, pool', idle', returned', present, _⟩ :=
    reach_unbid X dispatched 1 (reached.aside.chats 1 (by decide)) reached.idle reached.drained
      (by rw [reached.aside.abandoned]; rfl) (reached.aside.bids ⟨otherRequestId, _⟩ apart)
      ⟨reached.aside.options.1, reached.noPool⟩
  have pending := (congrFun kept 4).trans reached.pending
  have awaiting := (aside'.chats 0 (by decide)).trans reached.awaiting
  obtain ⟨replying, n, y, third, quiet, idle'', replied, others, flights, pool''⟩ :=
    reach_answer X x sampleReply idle' pending awaiting
  let z : World C := y.setTask (.chat 0) (.done ())
  have answering : Step X y (.call (.chat 0) (.httpResponse (.ok (sampleResult sampleBid.requestId))) ()) z :=
    .call (replied.trans reached.responding) rfl
  have noPool' : z.loop.pgPool = false := (pool''.trans pool').trans reached.noPool
  let ack := paidAck C (Vector.replicate 32 0)
  obtain ⟨receipt, signed⟩ := receiptFor_isSome z.loop ⟨"12D3KooWPeerNode1"⟩ ack 1700000010000 (show 1 < 2 ^ 31 by decide)
  obtain ⟨after, w, last, _, _, _, free, _, loop, ⟨calls, tasks⟩, _⟩ := reach_accepted X z
    (show z.tasks .eventLoop = .done () from idle'') noPool' (paidAck_verified correct _) 7 signed
  have run := (((reached.run.append second).append third).snoc answering).append last
  have chats (k : Nat) : w.tasks (.chat k) = .done () := by
    rw [tasks (.chat k) (by simp)]
    by_cases zero : k = 0
    · rw [zero]
      exact World.setTask_same _ _ _
    · rw [World.setTask_other (fun same => zero (TaskId.chat.inj same)), others k zero]
      by_cases one : k = 1
      · rw [one]
        exact returned'
      · rw [aside'.chats k one, reached.aside.chats k zero]
        rfl
  let dispatch := pricedDispatch C (Vector.replicate 32 0) sampleBid.requestId sampleBid 1700000000000
  refine ⟨_, w, run, ?_, ⟨m, ⟨sampleBid.nodePeerId.value⟩, dispatch, ⟨sampleBid.requestId, 3⟩, ⟨.ok (), .ok (), 4, 4⟩, ?_,
    rfl⟩, chats, by rw [World.loopGone, free], ?_, ?_⟩
  · simp only [List.mem_append, List.mem_cons, List.not_mem_nil, or_false]
    intro step given
    rcases given with ((((inside | rfl) | inside) | inside | rfl) | rfl) | rfl | inside
    · exact reached.clean step (List.mem_append_left _ inside)
    · exact ⟨trivial, by simp⟩
    · exact ⟨(calm step inside).2, uncancelled_of_quiet (calm step inside).1⟩
    · exact ⟨(quiet step inside).1, (quiet step inside).2.1⟩
    · exact ⟨trivial, by simp⟩
    · exact ⟨trivial, by simp⟩
    · exact ⟨trivial, by simp⟩
    · obtain ⟨op, answer, shape⟩ := calls step inside
      rw [shape]
      exact ⟨trivial, by simp⟩
  · exact List.mem_append_left _ (List.mem_append_left _ (List.mem_append_left _ (List.mem_append_left _
      (List.mem_append_right before (List.mem_singleton.mpr rfl)))))
  · rw [loop]
    change Function.update y.loop.inFlight sampleRequest.requestId none sampleRequest.requestId = none
    exact Function.update_self _ _ _
  · rw [loop]
    change Function.update y.loop.inFlight sampleRequest.requestId none otherRequestId ≠ none
    rw [Function.update_of_ne apart, flights]
    exact present

/-- The first request is dispatched, answered and acked, the second gets no bids. -/
theorem unbid_request_unacked :
    let C := Primitives.marking []
    let X := Externals.serde readSampleBid fun text => .ok ⟨text⟩
    ∃ trace w, Runs X (World.start (EventLoop.new (C := C) (Vector.replicate 32 0) false false)
        (.inMemory fun _ => none) 60000) trace w ∧
      (∃ m peer dispatch out swarm, (m, Label.command (.dispatchInference peer dispatch out) swarm) ∈ trace ∧
        dispatch.dispatchToken.requestId = sampleRequest.requestId) ∧
      (∀ k, w.tasks (.chat k) = .done ()) ∧ (∀ outId, w.loop.pendingInference outId = none) ∧
      ¬ Unacked trace sampleRequest.requestId ∧ Unacked trace otherRequestId := by
  intro C X
  obtain ⟨trace, w, run, clean, dispatched, chats, alive, gone, present⟩ := reach_acked_beside_unbid
  obtain ⟨cleared, flying⟩ := tables_after_return X _ false false _ _ w trace run
    (fun step given => (clean step given).1) (fun step given => (clean step given).2) chats alive
  refine ⟨trace, w, run, dispatched, chats, cleared, ?_, (flying otherRequestId).mp present⟩
  intro unacked
  exact (flying sampleRequest.requestId).mpr unacked gone

/-- The only call has returned, nothing was dispatched, and its entries are still there. -/
theorem unbid_request_keeps_entries :
    let C := Primitives.marking []
    let X := Externals.serde readSampleBid fun text => .ok ⟨text⟩
    ∃ trace w, Runs X (World.start (EventLoop.new (C := C) (Vector.replicate 32 0) false false)
        (.inMemory fun _ => none) 60000) trace w ∧
      (∀ step ∈ trace, step.2.handleOnly) ∧ (∀ step ∈ trace, ∀ k, step.2 ≠ .cancel k) ∧
      (∀ k, w.tasks (.chat k) = .done ()) ∧ w.loopGone = false ∧
      (∀ step ∈ trace, ∀ peer dispatch out swarm, step.2 ≠ .command (.dispatchInference peer dispatch out) swarm) ∧
      publishedIds trace = [sampleRequest.requestId] ∧ w.loop.inFlight sampleRequest.requestId ≠ none ∧
      w.loop.bidSubscribers sampleRequest.requestId ≠ none := by
  intro C X
  obtain ⟨trace, w, run, calm, published, aside, _, _, free, returned, present, subscribed⟩ :=
    reach_unbid X (World.start (EventLoop.new (C := C) (Vector.replicate 32 0) false false) (.inMemory fun _ => none)
      60000) 0 rfl rfl rfl rfl rfl ⟨rfl, rfl⟩
  refine ⟨trace, w, run, fun step member => (calm step member).2,
    fun step member => uncancelled_of_quiet (calm step member).1, ?_, ?_, ?_, published, present, subscribed⟩
  · intro k
    by_cases own : k = 0
    · rw [own]
      exact returned
    · exact aside.chats k own
  · rw [World.loopGone, free]
  · intro step member peer dispatch out swarm shape
    have quiet := (calm step member).1
    rw [shape] at quiet
    cases quiet

end Coordinator
