import Pinaivu.Coordinator.Auctions

namespace Coordinator

open Protocol Crypto Async

variable {C : Primitives} {X : Externals} {loop : EventLoop C} {archive : ReceiptArchive} {ttl : UInt64}
  {w m n : World C} {trace : List (World C × Label)} {label : Label}

theorem addressed_of_sent (run : Runs X (World.start loop archive ttl) trace w)
    (handle : ∀ step ∈ trace, step.2.handleOnly) {r : RequestId} {addresses : PayoutAddresses}
    (sent : MeshCommand.setPayoutAddresses r addresses ∈ sentCommands trace) :
    ∃ bids, addresses = payoutAddresses bids ∧ Collected trace r bids := by
  revert sent
  refine run.history (I := fun trace _ => MeshCommand.setPayoutAddresses r addresses ∈ sentCommands trace →
    ∃ bids, addresses = payoutAddresses bids ∧ Collected trace r bids) nofun ?_
  intro before m label n run shape step kept sent
  rw [sentCommands_snoc, List.mem_append, Option.mem_toList] at sent
  rcases sent with old | new
  · obtain ⟨bids, same, collected⟩ := kept old
    exact ⟨bids, same, collected.snoc _⟩
  · rcases sent_by_chat run step (handle _ (Run.last_mem shape)) new with
      ⟨k, rfl, allowed, _⟩ | ⟨_, _, dial⟩ | ⟨_, query⟩
    · have sound := sound_of_run run
        (fun taken member => handle taken (Run.init_mem shape member)) k
      generalize chatPhase k before = phase at allowed sound
      cases allowed with
      | @address _ tx bids => exact ⟨bids, rfl, sound.2.snoc _⟩
    · cases dial
    · cases query

theorem addressed_before_dispatch (run : Runs X (World.start loop archive ttl) trace w)
    (handle : ∀ step ∈ trace, step.2.handleOnly) {before after : List MeshCommand} {peer : PeerId}
    {dispatch : InferenceDispatch} {out : OneshotId}
    (sent : sentCommands trace = before ++ .dispatchInference peer dispatch out :: after) :
    ∃ addresses, MeshCommand.setPayoutAddresses dispatch.dispatchToken.requestId addresses ∈ before := by
  revert before after
  refine run.history (I := fun trace _ => ∀ {before after},
    sentCommands trace = before ++ .dispatchInference peer dispatch out :: after →
    ∃ addresses, MeshCommand.setPayoutAddresses dispatch.dispatchToken.requestId addresses ∈ before) ?_ ?_
  · intro before after sent
    exact absurd sent.symm (List.append_ne_nil_of_right_ne_nil _ (List.cons_ne_nil _ _))
  · intro trace m label n run shape step kept before after sent
    rw [sentCommands_snoc] at sent
    cases new : label.sends with
    | none =>
      rw [new, Option.toList_none, List.append_nil] at sent
      exact kept sent
    | some command =>
      rw [new, Option.toList_some] at sent
      rcases snoc_eq_split sent with ⟨rfl, rfl, _⟩ | ⟨rest, _, inside⟩
      · rcases sent_by_chat run step (handle _ (Run.last_mem shape)) new with
          ⟨k, rfl, allowed, _⟩ | ⟨_, _, dial⟩ | ⟨_, query⟩
        · have sound := sound_of_run run
            (fun taken member => handle taken (Run.init_mem shape member)) k
          generalize chatPhase k trace = phase at allowed sound
          cases allowed with
          | dispatch own =>
            rcases sound.2 with addressed | gone
            · rw [own]
              exact addressed
            · cases step with
              | call waiting answered =>
                cases performed answered with
                | silent quiet => cases quiet
                | sent _ alive => rw [alive] at gone; cases gone
        · cases dial
        · cases query
      · exact kept inside

theorem nodup_published {before : List (World C × Label)} (once : (publishedIds trace).Nodup)
    (shape : before <+: trace) : (publishedIds before).Nodup :=
  once.sublist (shape.sublist.filterMap _)

def Acked (trace : List (World C × Label)) (r : RequestId) : Prop :=
  ∃ m sender ack channel nowMs, (m, Label.event (.completion sender ack channel nowMs)) ∈ trace ∧
    ack.requestId = r ∧ Verified C ack

theorem published_inFlight (step : Step X m label n) {r : RequestId} (publishes : label.publishes = some r) :
    ∃ flight, n.loop.inFlight r = some flight := by
  cases step with
  | @command command rest swarm idle queued fresh outFresh =>
    cases command with
    | publish request tx =>
      cases outcome : swarm.published with
      | error e => simp [Label.publishes, outcome] at publishes
      | ok =>
        simp only [Label.publishes, outcome, Option.some.injEq] at publishes
        subst publishes
        simp [World.setTask, EventLoop.handleCommand, EventLoop.publishRequest, outcome]
    | _ => cases publishes
  | _ => cases publishes

theorem addressing_inFlight {r : RequestId} {addresses : PayoutAddresses} {swarm : SwarmAnswers}
    (step : Step X m (.command (.setPayoutAddresses r addresses) swarm) n) {flight : InFlightMeta}
    (present : m.loop.inFlight r = some flight) :
    n.loop.inFlight r = some { flight with payoutAddresses := addresses } := by
  cases step with
  | command idle queued fresh outFresh =>
    simp [World.setTask, EventLoop.handleCommand, present]

theorem addresses_unique (run : Runs X (World.start loop archive ttl) trace w)
    (handle : ∀ step ∈ trace, step.2.handleOnly) (once : (publishedIds trace).Nodup) {r : RequestId}
    {addresses other : PayoutAddresses} (first : MeshCommand.setPayoutAddresses r addresses ∈ sentCommands trace)
    (second : MeshCommand.setPayoutAddresses r other ∈ sentCommands trace) : addresses = other := by
  obtain ⟨bids, rfl, collected⟩ := addressed_of_sent run handle first
  obtain ⟨bids', rfl, collected'⟩ := addressed_of_sent run handle second
  rw [collected.unique run handle once collected']

theorem sent_of_handledCommands (run : Runs X (World.start loop archive ttl) trace w) {command : MeshCommand}
    (handled : command ∈ handledCommands trace) : command ∈ sentCommands trace := by
  rw [commands_in_order run]
  exact List.mem_append_left _ handled

def FlightAddressed (r : RequestId) (trace : List (World C × Label)) (w : World C) : Prop :=
  r ∈ publishedIds trace → Acked trace r ∨ ∃ flight, w.loop.inFlight r = some flight ∧
    ∀ addresses, MeshCommand.setPayoutAddresses r addresses ∈ handledCommands trace →
      flight.payoutAddresses = addresses

theorem flightAddressed (run : Runs X (World.start loop archive ttl) trace w)
    (handle : ∀ step ∈ trace, step.2.handleOnly) (once : (publishedIds trace).Nodup) (r : RequestId) :
    FlightAddressed r trace w := by
  refine run.history (I := FlightAddressed r) nofun ?_
  intro before m label n run shape step kept published
  have earlier : ∀ step ∈ before, step.2.handleOnly := fun taken member =>
    handle taken (Run.init_mem shape member)
  have later : ∀ step ∈ before ++ [(m, label)], step.2.handleOnly := fun taken member =>
    handle taken (shape.subset member)
  have distinct := nodup_published once shape
  by_cases publishes : label.publishes = some r
  · obtain ⟨flight, present⟩ := published_inFlight step publishes
    refine .inr ⟨flight, present, fun addresses handled => ?_⟩
    rw [handledCommands_snoc, List.mem_append, Option.mem_toList] at handled
    rcases handled with old | new
    · obtain ⟨bids, _, collected⟩ := addressed_of_sent run earlier (sent_of_handledCommands run old)
      obtain ⟨tx, opened⟩ := collected.opened run earlier
      rw [publishedIds_append, List.nodup_append] at distinct
      exact absurd rfl (distinct.2.2 r opened.published r
        (List.mem_filterMap.mpr ⟨_, List.mem_singleton.mpr rfl, publishes⟩))
    · cases label with
      | command command swarm =>
        cases new
        cases publishes
      | _ => cases new
  · have known : r ∈ publishedIds before := by
      rw [publishedIds_append, List.mem_append] at published
      refine published.resolve_right fun last => publishes ?_
      simpa [publishedIds] using last
    rcases kept known with ⟨x, sender, ack, channel, nowMs, member, acked⟩ | ⟨flight, present, mapped⟩
    · exact .inl ⟨x, sender, ack, channel, nowMs, List.mem_append_left _ member, acked⟩
    · by_cases addressing : ∃ addresses, label.takes = some (.setPayoutAddresses r addresses)
      · obtain ⟨addresses, takes⟩ := addressing
        have shaped : ∃ swarm, label = .command (.setPayoutAddresses r addresses) swarm := by
          cases label with
          | command command swarm =>
            cases takes
            exact ⟨swarm, rfl⟩
          | _ => cases takes
        obtain ⟨swarm, rfl⟩ := shaped
        refine .inr ⟨_, addressing_inFlight step present, fun other handled => ?_⟩
        refine addresses_unique (run.snoc step) later distinct (sent_of_handledCommands (run.snoc step) ?_)
          (sent_of_handledCommands (run.snoc step) handled)
        rw [handledCommands_snoc]
        simp [takes]
      · have unhandled (other : PayoutAddresses)
            (handled : MeshCommand.setPayoutAddresses r other ∈ handledCommands (before ++ [(m, label)])) :
            MeshCommand.setPayoutAddresses r other ∈ handledCommands before := by
          rw [handledCommands_snoc, List.mem_append, Option.mem_toList] at handled
          exact handled.resolve_right fun new => addressing ⟨other, new⟩
        rcases step_inFlight step r with same | now | ⟨addresses, swarm, _, rfl, _⟩ |
          ⟨sender, ack, channel, nowMs, rfl, own, verified, _⟩
        · exact .inr ⟨flight, by rw [same, present], fun other handled => mapped other (unhandled other handled)⟩
        · exact absurd now publishes
        · exact absurd ⟨addresses, rfl⟩ addressing
        · exact .inl ⟨m, sender, ack, channel, nowMs, by simp, own, verified⟩

/-- The request was acked, or it is in flight with exactly the payout map built from `bids`. -/
def AckedOrAddressed (trace : List (World C × Label)) (w : World C) (r : RequestId)
    (bids : List InferenceBid) : Prop :=
  Acked trace r ∨ ∃ flight, w.loop.inFlight r = some flight ∧ flight.payoutAddresses = payoutAddresses bids

theorem handledCommands_append (before after : List (World C × Label)) :
    handledCommands (before ++ after) = handledCommands before ++ handledCommands after := List.filterMap_append

/-- When a dispatch is handled, the payout map its handler built from the bids it collected is in place
    unless the request has been acked, and so in every later state. -/
theorem addresses_in_place_at_dispatch (X : Externals) (loop : EventLoop C) (archive : ReceiptArchive)
    (ttl : UInt64) (m w : World C) (before after : List (World C × Label)) (peer : PeerId)
    (dispatch : InferenceDispatch) (out : OneshotId) (swarm : SwarmAnswers)
    (run : Runs X (World.start loop archive ttl)
      (before ++ (m, .command (.dispatchInference peer dispatch out) swarm) :: after) w)
    (handle : ∀ step ∈ before ++ (m, .command (.dispatchInference peer dispatch out) swarm) :: after,
      step.2.handleOnly)
    (once : (publishedIds (before ++ (m, .command (.dispatchInference peer dispatch out) swarm) :: after)).Nodup) :
    ∃ bids, Collected before dispatch.dispatchToken.requestId bids ∧
      (∀ other, Collected (before ++ (m, .command (.dispatchInference peer dispatch out) swarm) :: after)
        dispatch.dispatchToken.requestId other → other = bids) ∧
      AckedOrAddressed before m dispatch.dispatchToken.requestId bids ∧
      AckedOrAddressed (before ++ (m, .command (.dispatchInference peer dispatch out) swarm) :: after) w
        dispatch.dispatchToken.requestId bids := by
  obtain ⟨first, n, step, _⟩ := run.split rfl
  have shape : before <+: before ++ (m, .command (.dispatchInference peer dispatch out) swarm) :: after :=
    List.prefix_append _ _
  have earlier : ∀ step ∈ before, step.2.handleOnly := fun taken member => handle taken (shape.subset member)
  have distinct := nodup_published once shape
  have queued : ∃ rest, m.commands = .dispatchInference peer dispatch out :: rest := by
    cases step with
    | command idle queued fresh outFresh => exact ⟨_, queued⟩
  obtain ⟨rest, queued⟩ := queued
  have order := commands_in_order first
  rw [queued] at order
  obtain ⟨addresses, handled⟩ := addressed_before_dispatch first earlier order
  obtain ⟨bids, rfl, collected⟩ := addressed_of_sent first earlier (sent_of_handledCommands first handled)
  obtain ⟨tx, opened⟩ := collected.opened first earlier
  refine ⟨bids, collected, fun other again => ?_, ?_, ?_⟩
  · obtain ⟨x, k, rx, member, own⟩ := collected
    exact again.unique run handle once ⟨x, k, rx, shape.subset member, own⟩
  · rcases flightAddressed first earlier distinct _ opened.published with acked | ⟨flight, present, mapped⟩
    · exact .inl acked
    · exact .inr ⟨flight, present, mapped _ handled⟩
  · have published := (shape.sublist.filterMap fun step => step.2.publishes).subset opened.published
    rcases flightAddressed run handle once _ published with acked | ⟨flight, present, mapped⟩
    · exact .inl acked
    · refine .inr ⟨flight, present, mapped _ ?_⟩
      rw [handledCommands_append]
      exact List.mem_append_left _ handled

def pricedChat : ChatCompletionRequest :=
  { sampleChat with
    clientPubkeyHex := "0000000000000000000000000000000000000000000000000000000000000000"
    maxPriceNanox := some 10
    sessionKey := some "sk" }

def pricedDispatch (C : Primitives) (key : C.SigningKey) (r : RequestId) (bid : InferenceBid)
    (nowMs : UInt64) : InferenceDispatch :=
  ⟨dispatchToken C key r sampleRequest.sessionId (Vector.replicate 32 0) bid (some 10) nowMs, "sk", "hello", none⟩

def sampleReply : InferenceReply := ⟨sampleRequest.requestId, sampleRequest.sessionId, "hi", 3, 5, 120, none⟩

def sampleResult (r : RequestId) : ChatCompletionResult :=
  ⟨r, sampleRequest.sessionId, sampleReply.content, "sk", sampleReply.inputTokens, sampleReply.outputTokens,
    sampleReply.latencyMs⟩

theorem pricedChat_asks (X : Externals) (key : C.SigningKey) (r : RequestId) {bid : InferenceBid} {peer : PeerId}
    (parsed : X.parsePeerId bid.nodePeerId.value = .ok peer) (tx out : OneshotId) (rx : BidChannelId) (nowMs : UInt64) :
    ∃ collected, Asks X key pricedChat r tx rx collected ∧
      ∃ recorded, collected [bid] = .call (.sendCommand (.setPayoutAddresses r (payoutAddresses [bid]))) recorded ∧
      ∃ clocked, recorded true = .call .now clocked ∧
      ∃ opened, clocked nowMs = .call (.newOneshot r) opened ∧
      ∃ sent, opened out = .call (.sendCommand (.dispatchInference peer (pricedDispatch C key r bid nowMs) out)) sent ∧
      ∃ answered, sent true = .call (.awaitInference out) answered ∧
        answered (.ok sampleReply) = call (.httpResponse (.ok (sampleResult r))) := by
  have decoded : decodeHexPubkey pricedChat.clientPubkeyHex = .ok (Vector.replicate 32 0) := by decide
  have serves : ∃ answered : Except String InferenceReply → Task (Except AppError ChatCompletionResult),
      dispatchToWinner X C key pricedChat r sampleRequest.sessionId "hello" bid = .call .now (fun nowMs =>
        (dispatchInference peer (pricedDispatch C key r bid nowMs)).bind answered) ∧
      answered (.ok sampleReply) = .done (.ok (sampleResult r)) := by
    unfold dispatchToWinner
    rw [decoded, parsed]
    exact ⟨_, rfl, rfl⟩
  obtain ⟨answered, serves, replied⟩ := serves
  refine ⟨_, ⟨_, rfl, _, rfl, _, rfl, _, rfl, rfl⟩, _, rfl, ?_⟩
  change ∃ clocked, Routine.bind (dispatchToWinner X C key pricedChat r sampleRequest.sessionId "hello" bid) _ = _ ∧ _
  rw [serves]
  refine ⟨_, rfl, _, rfl, _, rfl, _, rfl, ?_⟩
  change Routine.bind (answered (.ok sampleReply)) _ = _
  rw [replied]
  rfl

theorem reach_dispatch (X : Externals) (w : World C) {r : RequestId} {nowMs : UInt64} {peer : PeerId}
    {dispatch : InferenceDispatch} {clocked : UInt64 → Task Unit} {opened : OneshotId → Task Unit}
    {sent : Bool → Task Unit} (idle : w.tasks .eventLoop = .done ()) (drained : w.commands = [])
    (clocking : w.tasks (.chat 0) = .call .now clocked) (opening : clocked nowMs = .call (.newOneshot r) opened)
    (sending : opened ⟨r, w.serial⟩ =
      .call (.sendCommand (.dispatchInference peer dispatch ⟨r, w.serial⟩)) sent) :
    ∃ trace m w', Runs X w
        (trace ++ [(m, .command (.dispatchInference peer dispatch ⟨r, w.serial⟩) m.swarmAnswers)]) w' ∧
      (∀ step ∈ trace, step.2.quiet ∧ step.2.handleOnly) ∧ publishedIds trace = [] ∧ Aside 0 r w w' ∧
      m.loop = w.loop ∧ m.serial = w.serial + 1 ∧ w'.tasks .eventLoop = .done () ∧ w'.commands = [] ∧
      w'.tasks (.chat 0) = sent true ∧
      w'.loop = { w.loop with
        pendingInference := Function.update w.loop.pendingInference (w.serial + 1) (some ⟨r, w.serial⟩) } := by
  let command : MeshCommand := .dispatchInference peer dispatch ⟨r, w.serial⟩
  let timed : World C := w.setTask (.chat 0) (clocked nowMs)
  let replying : World C := { timed with serial := w.serial + 1 }.setTask (.chat 0) (opened ⟨r, w.serial⟩)
  let asked : World C := { replying with commands := [command] }.setTask (.chat 0) (sent true)
  have first : Step X w (.call (.chat 0) .now nowMs) timed := .call clocking rfl
  have opening' : timed.tasks (.chat 0) = .call (.newOneshot r) opened := by
    rw [← opening]
    exact World.setTask_same _ _ _
  have fresh : timed.perform X (.newOneshot r) ⟨r, w.serial⟩ = some { timed with serial := w.serial + 1 } :=
    if_pos rfl
  have second : Step X timed (.call (.chat 0) (.newOneshot r) ⟨r, w.serial⟩) replying := .call opening' fresh
  have sending' : replying.tasks (.chat 0) = .call (.sendCommand command) sent := by
    rw [← sending]
    exact World.setTask_same _ _ _
  have still : replying.tasks .eventLoop = .done () := idle
  have clear : replying.commands = [] := drained
  have third : Step X replying (.call (.chat 0) (.sendCommand command) true) asked :=
    .call sending' (sendCommand_sent X still clear command)
  have fourth : Step X asked (.command command asked.swarmAnswers) (asked.handled command asked.swarmAnswers) :=
    .command idle rfl rfl rfl
  refine ⟨[_, _, _], asked, _, .cons first (.cons second (.cons third (.one fourth))), ?_, rfl, ?_, rfl, rfl, ?_,
    rfl, ?_, rfl⟩
  · intro step member
    simp only [List.mem_cons, List.not_mem_nil, or_false] at member
    rcases member with rfl | rfl | rfl <;> exact ⟨rfl, trivial⟩
  · refine ⟨fun j apart => ?_, rfl, fun _ _ => rfl, fun _ _ => rfl, rfl, rfl⟩
    have other : TaskId.chat j ≠ .chat 0 := fun same => apart (TaskId.chat.inj same)
    have loop : TaskId.chat j ≠ .eventLoop := nofun
    simp only [World.handled, asked, replying, timed, World.setTask, Function.update_of_ne other,
      Function.update_of_ne loop]
  · exact World.setTask_same _ _ _
  · rfl

abbrev dispatchStep (key : C.SigningKey) (bid : InferenceBid) (peer : PeerId) (m : World C) : World C × Label :=
  (m, .command (.dispatchInference peer (pricedDispatch C key bid.requestId bid 1700000000000) ⟨bid.requestId, 3⟩)
    ⟨.ok (), .ok (), 4, 4⟩)

/-- The call `pricedChat` from its arrival to its handled dispatch, which it now waits on. -/
structure Dispatched (X : Externals) (key : C.SigningKey) (bid : InferenceBid) (peer : PeerId)
    (before : List (World C × Label)) (m w : World C) (answered : Except String InferenceReply → Task Unit) :
    Prop where
  run : Runs X (World.start (EventLoop.new key false false) (.inMemory fun _ => none) 60000)
    (before ++ [dispatchStep key bid peer m]) w
  clean : ∀ step ∈ before ++ [dispatchStep key bid peer m], step.2.handleOnly ∧ ∀ k, step.2 ≠ .cancel k
  published : publishedIds (before ++ [dispatchStep key bid peer m]) = [bid.requestId]
  aside : Aside 0 bid.requestId (World.start (EventLoop.new key false false) (.inMemory fun _ => none) 60000) w
  responding : answered (.ok sampleReply) = call (.httpResponse (.ok (sampleResult bid.requestId)))
  idle : w.tasks .eventLoop = .done ()
  drained : w.commands = []
  noPool : w.loop.pgPool = false
  awaiting : w.tasks (.chat 0) = .call (.awaitInference ⟨bid.requestId, 3⟩) answered
  pending : w.loop.pendingInference 4 = some ⟨bid.requestId, 3⟩
  flight : w.loop.inFlight bid.requestId = some (flightOf (chatRequest bid.requestId) (payoutAddresses [bid]))

theorem reach_dispatched (X : Externals) (key : C.SigningKey) (bid : InferenceBid) (message : GossipMessage)
    (topic : message.topic = Topics.bids) (parsed : X.bidFromSlice message.data = some bid) {peer : PeerId}
    (known : X.parsePeerId bid.nodePeerId.value = .ok peer) :
    ∃ before m w answered, Dispatched X key bid peer before m w answered := by
  obtain ⟨collected, asks, recorded, recording, clocked, clocking, opened, opening, sent, sending, answered,
    awaiting, responding⟩ := pricedChat_asks X key bid.requestId known ⟨bid.requestId, 0⟩ ⟨bid.requestId, 3⟩
      ⟨bid.requestId, 1⟩ 1700000000000
  obtain ⟨early, x, left, quiet, published, first, idle, drained, serial, channel, subscribed, present, noPool,
    collecting⟩ := reach_auction X key (.inMemory fun _ => none) pricedChat bid.requestId asks
  obtain ⟨middle, y, right, quiet', published', second, idle', drained', serial', noPool', chat, flight, _⟩ :=
    reach_recorded X x idle drained channel subscribed present collecting recording topic parsed rfl
      ⟨"12D3KooWPeerNode1"⟩ 1700000000000
  rw [serial] at serial'
  rw [clocking] at chat
  obtain ⟨late, m, w, last, quiet'', published'', third, loop, serial'', idle'', drained'', chat', loop'⟩ :=
    reach_dispatch X y idle' drained' chat opening (by rw [serial']; exact sending)
  rw [serial'] at last serial'' loop'
  rw [World.swarmAnswers, serial''] at last
  refine ⟨early ++ (x, .event (.gossip ⟨"12D3KooWPeerNode1"⟩ message 1700000000000)) :: middle ++ late, m, w,
    answered, ?_⟩
  exact {
    run := by
      rw [List.append_assoc]
      exact (left.append right).append last
    clean := by
      simp only [List.mem_append, List.mem_cons, List.not_mem_nil, or_false]
      intro taken given
      rcases given with ((inside | rfl | inside) | inside) | rfl
      · exact ⟨(quiet taken inside).2, uncancelled_of_quiet (quiet taken inside).1⟩
      · exact ⟨trivial, by simp⟩
      · exact ⟨(quiet' taken inside).2.1, uncancelled_of_quiet (quiet' taken inside).1⟩
      · exact ⟨(quiet'' taken inside).2, uncancelled_of_quiet (quiet'' taken inside).1⟩
      · exact ⟨trivial, by simp⟩
    published := by
      simp only [publishedIds_append, publishedIds_event, published, published', published'']
      rfl
    aside := (first.trans (second rfl)).trans third
    responding := responding
    idle := idle''
    drained := drained''
    noPool := by rw [loop', noPool', noPool]
    awaiting := by rw [chat', awaiting]
    pending := by
      rw [loop']
      simp
    flight := by
      rw [loop']
      exact flight }

theorem dispatch_finds_addresses :
    let C := Primitives.marking []
    let X := Externals.serde readSampleBid fun text => .ok ⟨text⟩
    ∃ before m dispatch out swarm w bids flight,
      Runs X (World.start (EventLoop.new (C := C) (Vector.replicate 32 0) false false)
        (.inMemory fun _ => none) 60000)
        (before ++ [(m, .command (.dispatchInference ⟨sampleBid.nodePeerId.value⟩ dispatch out) swarm)]) w ∧
      Collected before dispatch.dispatchToken.requestId bids ∧
      AckedOrAddressed before m dispatch.dispatchToken.requestId bids ∧
      w.loop.inFlight dispatch.dispatchToken.requestId = some flight ∧
      flight.payoutAddresses sampleBid.nodePeerId.value = some sampleBid.payoutAddress := by
  intro C X
  obtain ⟨before, m, w, _, reached⟩ :=
    reach_dispatched X (C := C) (Vector.replicate 32 0) sampleBid (bidMessage "12D3KooWPeerNode1") rfl (if_pos rfl) rfl
  obtain ⟨bids, collected, _, placed, _⟩ := addresses_in_place_at_dispatch X _ _ _ m w before [] _ _ _ _
    reached.run (fun step member => (reached.clean step member).1) (by rw [reached.published]; exact List.nodup_singleton _)
  have addressed : payoutAddresses [sampleBid] sampleBid.nodePeerId.value = some sampleBid.payoutAddress := by decide
  exact ⟨before, m, _, _, _, w, bids, _, reached.run, collected, placed, reached.flight, addressed⟩

end Coordinator
