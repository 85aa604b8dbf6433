import Pinaivu.Coordinator.Tasks

namespace Coordinator

open Protocol Crypto Async

variable {C : Primitives} {X : Externals}

theorem foldl_update_eq_some {entries : List (String × String)} {found : PayoutAddresses} {p a : String}
    (mapped : entries.foldl (fun (found : PayoutAddresses) entry =>
      Function.update found entry.1 (some entry.2)) found p = some a) : found p = some a ∨ (p, a) ∈ entries := by
  induction entries generalizing found with
  | nil => exact .inl mapped
  | cons entry entries ih =>
    rw [List.foldl_cons] at mapped
    rcases ih mapped with before | later
    · by_cases same : p = entry.1
      · subst same
        rw [Function.update_self, Option.some.injEq] at before
        subst before
        exact .inr List.mem_cons_self
      · rw [Function.update_of_ne same] at before
        exact .inl before
    · exact .inr (List.mem_cons_of_mem _ later)

theorem bid_of_payoutAddresses {bids : List InferenceBid} {p a : String}
    (mapped : payoutAddresses bids p = some a) :
    ∃ bid ∈ bids, bid.nodePeerId.value = p ∧ bid.payoutAddress = a ∧ bid.payoutAddress ≠ "" := by
  rcases foldl_update_eq_some mapped with absurd | member
  · cases absurd
  · rw [List.mem_map] at member
    rcases member with ⟨bid, inside, same⟩
    rw [List.mem_filter] at inside
    rw [Prod.mk.injEq] at same
    exact ⟨bid, inside.1, same.1, same.2, by simpa using inside.2⟩

/-- The bid came with a message on the BIDS topic while its request had a subscriber. -/
def Delivered (X : Externals) (trace : List (World C × Label)) (bid : InferenceBid) : Prop :=
  ∃ m source message nowMs tx, (m, Label.event (.gossip source message nowMs)) ∈ trace ∧
    message.topic = Topics.bids ∧ X.bidFromSlice message.data = some bid ∧
    m.loop.bidSubscribers bid.requestId = some tx

def BidsFor (X : Externals) (trace : List (World C × Label)) (r : RequestId) (bids : List InferenceBid) :
    Prop :=
  ∀ bid ∈ bids, bid.requestId = r ∧ Delivered X trace bid

def AddressesFrom (X : Externals) (trace : List (World C × Label)) (r : RequestId)
    (addresses : PayoutAddresses) : Prop :=
  ∃ bids, BidsFor X trace r bids ∧ addresses = payoutAddresses bids

def CommandFrom (X : Externals) (trace : List (World C × Label)) : MeshCommand → Prop
  | .publish request tx => tx.request = request.requestId
  | .setPayoutAddresses r addresses => AddressesFrom X trace r addresses
  | _ => True

def passesBids (X : Externals) (trace : List (World C × Label)) : Call → Prop
  | .sendCommand command => CommandFrom X trace command
  | .sendBid tx bid => bid.requestId = tx.request ∧ Delivered X trace bid
  | .replyPublish tx result => ∀ rx, result = .ok rx → rx.request = tx.request
  | _ => True

def answersBids (X : Externals) (trace : List (World C × Label)) : (op : Call) → Answer op → Prop
  | .newOneshot request, tx => tx.request = request
  | .awaitPublish tx, result => ∀ rx, result = .ok rx → rx.request = tx.request
  | .collectBids rx, bids => BidsFor X trace rx.request bids
  | _, _ => True

structure BidsTraced (X : Externals) (trace : List (World C × Label)) (w : World C) : Prop where
  commands : ∀ command ∈ w.commands, CommandFrom X trace command
  subscribers : ∀ r tx, w.loop.bidSubscribers r = some tx → tx.request = r
  flights : ∀ r flight, w.loop.inFlight r = some flight → AddressesFrom X trace r flight.payoutAddresses
  replies : ∀ tx rx, w.publishReplies tx = some (.ok rx) → rx.request = tx.request
  queued : ∀ rx, BidsFor X trace rx.request (w.bids rx).queue
  collected : ∀ rx, BidsFor X trace rx.request (w.bids rx).collected
  tasks : TasksSat (fun _ => passesBids X trace) (answersBids X trace) w

/-- Beside `chat_completions`, the holders of the mesh handle only dial and ask for addresses. -/
def Label.handleOnly : Label → Prop
  | .external (.dial _ _) => True
  | .external (.listenAddrs _) => True
  | .external _ => False
  | _ => True

variable {trace : List (World C × Label)} {m n : World C} {label : Label}

theorem plain_passesBids (op : Call) (plain : op.plain) : passesBids X trace op := by
  cases op with
  | sendCommand command => cases plain
  | sendBid tx bid => cases plain
  | replyPublish tx result => cases plain
  | _ => exact trivial

theorem noBids_addressesFrom (r : RequestId) : AddressesFrom X trace r fun _ => none :=
  ⟨[], by simp [BidsFor], rfl⟩

theorem publishRequest_ok {self : EventLoop C} {request : InferenceRequest} {swarm : SwarmAnswers}
    {rx : BidChannelId} (published : (self.publishRequest request swarm).2 = .ok rx) :
    rx.request = request.requestId := by
  unfold EventLoop.publishRequest at published
  split at published
  · cases published
  · cases published
    rfl

theorem begins_passesBids (kept : BidsTraced X trace m) (member : (m, label) ∈ trace)
    (queued : ∀ command swarm, label = .command command swarm → command ∈ m.commands) {id : TaskId}
    {task : Task Unit} (begun : Begins X m label id task) :
    task.Sat (passesBids X trace) (answersBids X trace) fun _ => True := by
  cases begun with
  | serve k req =>
    apply serveChat_sat plain_passesBids (fun _ _ _ => trivial)
    · exact fun request tx made => made
    · intro r tx rx bids made replied collected
      refine ⟨bids, ?_, rfl⟩
      rw [← show tx.request = r from made, ← replied rx rfl]
      exact collected
  | drop k => exact trivial
  | command command swarm =>
    apply handleCommand_sat plain_passesBids
    intro request tx shape rx published
    have named := kept.commands command (queued command swarm rfl)
    rw [shape] at named
    rw [publishRequest_ok published]
    exact named.symm
  | event event =>
    apply handleEvent_sat plain_passesBids
    · intro source message nowMs bid tx shape topic parsed subscribed
      subst shape
      refine ⟨(kept.subscribers _ tx subscribed).symm, ?_⟩
      exact ⟨m, source, message, nowMs, tx, member, topic, parsed, subscribed⟩
    · exact fun _ _ _ _ _ _ _ _ => ⟨trivial, fun _ => ⟨fun _ _ _ => trivial, fun _ => trivial⟩⟩
  | forward => exact forwardJob_sat plain_passesBids fun _ _ => trivial
  | execute k stored known => exact runSettlement_sat stored.job plain_passesBids fun _ _ _ _ _ _ => trivial

theorem answered_bids {op : Call} {answer : Answer op} (kept : BidsTraced X trace m)
    (answered : m.perform X op answer = some n) : answersBids X trace op answer := by
  cases op with
  | newOneshot request => exact newOneshot_request answered
  | awaitPublish tx =>
    intro rx equal
    subst equal
    exact kept.replies tx rx (awaitPublish_reply answered)
  | collectBids rx =>
    have same := collectBids_collected answered
    subst same
    exact kept.collected rx
  | _ => exact trivial

theorem handleCommand_subscribes (self : EventLoop C) (command : MeshCommand) (swarm : SwarmAnswers) {r : RequestId}
    {tx : BidChannelId} (subscribed : (self.handleCommand command swarm).1.bidSubscribers r = some tx) :
    self.bidSubscribers r = some tx ∨ r = tx.request ∧ tx.serial = swarm.bidChannel := by
  cases command with
  | publish request reply =>
    simp only [EventLoop.handleCommand, EventLoop.publishRequest] at subscribed
    split at subscribed
    · exact .inl subscribed
    · by_cases same : r = request.requestId
      · subst same
        simp only [Function.update_self, Option.some.injEq] at subscribed
        rw [← subscribed]
        exact .inr ⟨rfl, rfl⟩
      · simp only [Function.update_of_ne same] at subscribed
        exact .inl subscribed
  | setPayoutAddresses requestId addresses =>
    simp only [EventLoop.handleCommand] at subscribed
    split at subscribed <;> exact .inl subscribed
  | _ => exact .inl subscribed

theorem handleCommand_flights (self : EventLoop C) {command : MeshCommand} (swarm : SwarmAnswers)
    (allowed : CommandFrom X trace command)
    (traced : ∀ r flight, self.inFlight r = some flight → AddressesFrom X trace r flight.payoutAddresses)
    {r : RequestId} {flight : InFlightMeta}
    (present : (self.handleCommand command swarm).1.inFlight r = some flight) :
    AddressesFrom X trace r flight.payoutAddresses := by
  cases command with
  | publish request reply =>
    simp only [EventLoop.handleCommand, EventLoop.publishRequest] at present
    split at present
    · exact traced r flight present
    · by_cases same : r = request.requestId
      · subst same
        simp only [Function.update_self, Option.some.injEq] at present
        subst present
        exact noBids_addressesFrom _
      · simp only [Function.update_of_ne same] at present
        exact traced r flight present
  | setPayoutAddresses requestId addresses =>
    simp only [EventLoop.handleCommand] at present
    split at present
    · by_cases same : r = requestId
      · subst same
        simp only [Function.update_self, Option.some.injEq] at present
        subst present
        exact allowed
      · simp only [Function.update_of_ne same] at present
        exact traced r flight present
    · exact traced r flight present
  | dial addr reply => exact traced r flight present
  | listenAddrs reply => exact traced r flight present
  | dispatchInference peer dispatch reply => exact traced r flight present

theorem handleEvent_subscribers (self : EventLoop C) (event : Event) :
    (self.handleEvent X event).1.bidSubscribers = self.bidSubscribers := by
  cases event with
  | completion sender ack channel nowMs => simp only [EventLoop.handleEvent, handleCompletionAck_loop]
  | inferenceResponse outId response =>
    simp only [EventLoop.handleEvent, EventLoop.replyInference]
    split <;> rfl
  | inferenceFailure outId error =>
    simp only [EventLoop.handleEvent, EventLoop.replyInference]
    split <;> rfl
  | _ => rfl

theorem dropChat_bids (w : World C) (k : Nat) :
    (w.dropChat k).publishReplies = w.publishReplies ∧
      ∀ rx, ((w.dropChat k).bids rx).queue = (w.bids rx).queue ∧
        ((w.dropChat k).bids rx).collected = (w.bids rx).collected := by
  obtain ⟨_, _, shape, kept⟩ := dropChat_eq w k
  rw [shape]
  exact ⟨rfl, kept⟩

theorem receiveBid_bids {w : World C} {rx : BidChannelId} {bid : InferenceBid} {rest : List InferenceBid}
    {r : RequestId} (queued : (w.bids rx).queue = bid :: rest) (other : BidChannelId)
    (before : BidsFor X trace r (w.bids other).queue) (done : BidsFor X trace r (w.bids other).collected) :
    BidsFor X trace r ((w.receiveBid rx bid rest).bids other).queue ∧
      BidsFor X trace r ((w.receiveBid rx bid rest).bids other).collected := by
  by_cases same : other = rx
  · subst same
    rw [queued] at before
    simp only [World.receiveBid, Function.update_self]
    refine ⟨fun x member => before x (List.mem_cons_of_mem _ member), ?_⟩
    intro x member
    rcases List.mem_append.mp member with inside | last
    · exact done x inside
    · rw [List.mem_singleton] at last
      subst last
      exact before x List.mem_cons_self
  · simp only [World.receiveBid, Function.update_of_ne same]
    exact ⟨before, done⟩

theorem call_bidsTraced {id : TaskId} {op : Call} {next : Answer op → Task Unit} {answer : Answer op}
    (kept : BidsTraced X trace m) (waiting : m.tasks id = .call op next)
    (answered : m.perform X op answer = some n)
    (tasks : TasksSat (fun _ => passesBids X trace) (answersBids X trace) (n.setTask id (next answer))) :
    BidsTraced X trace (n.setTask id (next answer)) := by
  have effect := perform_effect answered
  have allowed : passesBids X trace op := ((kept.tasks id).step waiting answer).1
  refine ⟨?_, ?_, ?_, ?_, ?_, ?_, tasks⟩
  · intro command member
    change command ∈ n.commands at member
    rcases effect.commands with same | ⟨sent, rfl, extended⟩
    · rw [same] at member
      exact kept.commands command member
    · rw [extended, List.mem_append, List.mem_singleton] at member
      rcases member with before | last
      · exact kept.commands command before
      · rw [last]
        exact allowed
  · intro r tx subscribed
    change n.loop.bidSubscribers r = some tx at subscribed
    rw [effect.loop] at subscribed
    exact kept.subscribers r tx subscribed
  · intro r flight present
    change n.loop.inFlight r = some flight at present
    rw [effect.loop] at present
    exact kept.flights r flight present
  · intro tx rx found
    rcases effect.replies tx rx found with before | rfl
    · exact kept.replies tx rx before
    · exact allowed rx rfl
  · intro rx bid member
    rcases effect.queue rx bid member with before | rfl
    · exact kept.queued rx bid before
    · exact allowed
  · intro rx
    change BidsFor X trace rx.request (n.bids rx).collected
    rw [effect.collected rx]
    exact kept.collected rx

theorem cancel_bidsTraced (kept : BidsTraced X trace m) (k : Nat)
    (tasks : TasksSat (fun _ => passesBids X trace) (answersBids X trace) (m.dropChat k)) :
    BidsTraced X trace (m.dropChat k) := by
  obtain ⟨loop, commands, _⟩ := dropChat_keeps m k
  obtain ⟨replies, bids⟩ := dropChat_bids m k
  refine ⟨?_, ?_, ?_, ?_, ?_, ?_, tasks⟩
  · rw [commands]
    exact kept.commands
  · rw [loop]
    exact kept.subscribers
  · rw [loop]
    exact kept.flights
  · rw [replies]
    exact kept.replies
  · intro rx
    rw [(bids rx).1]
    exact kept.queued rx
  · intro rx
    rw [(bids rx).2]
    exact kept.collected rx

theorem event_flights (event : Event) (idle : m.tasks .eventLoop = .done ()) {r : RequestId} {flight : InFlightMeta}
    (present : (m.loop.handleEvent X event).1.inFlight r = some flight) : m.loop.inFlight r = some flight := by
  rcases step_inFlight (.event idle : Step X m (.event event) _) r with same | published | set | gone
  · exact same.symm.trans present
  · cases published
  · obtain ⟨_, _, _, shape, _⟩ := set
    cases shape
  · obtain ⟨_, _, _, _, _, _, _, none⟩ := gone
    cases none.symm.trans present

theorem external_commands {command : MeshCommand} (kept : ∀ other ∈ m.commands, CommandFrom X trace other)
    (handle : (Label.external command).handleOnly) : ∀ other ∈ m.commands ++ [command], CommandFrom X trace other := by
  intro other inside
  rcases List.mem_append.mp inside with before | last
  · exact kept other before
  · rw [List.mem_singleton.mp last]
    cases command with
    | dial addr tx => exact trivial
    | listenAddrs tx => exact trivial
    | _ => exact handle.elim

theorem BidsTraced.step (kept : BidsTraced X trace m) (member : (m, label) ∈ trace)
    (handle : label.handleOnly) (step : Step X m label n) : BidsTraced X trace n := by
  have tasks : TasksSat (fun _ => passesBids X trace) (answersBids X trace) n := by
    apply kept.tasks.step step
    · intro id task begun
      apply begins_passesBids kept member _ begun
      intro command swarm equal
      subst equal
      cases step with
      | command idle queued fresh outFresh =>
        rw [queued]
        exact List.mem_cons_self
    · intro id op answer m' equal _ answered
      subst equal
      exact answered_bids kept answered
  cases step with
  | request free => exact { kept with tasks }
  | cancel k => exact cancel_bidsTraced kept k tasks
  | call waiting answered => exact call_bidsTraced kept waiting answered tasks
  | receive collecting queued =>
    exact { kept with
      queued := fun rx => (receiveBid_bids queued rx (kept.queued rx) (kept.collected rx)).1
      collected := fun rx => (receiveBid_bids queued rx (kept.queued rx) (kept.collected rx)).2
      tasks }
  | @command command rest swarm idle queued fresh outFresh =>
    have first := kept.commands command (by rw [queued]; exact List.mem_cons_self)
    exact { kept with
      commands := fun other inside => kept.commands other (by rw [queued]; exact List.mem_cons_of_mem _ inside)
      subscribers := fun r tx subscribed =>
        (handleCommand_subscribes m.loop command swarm subscribed).elim (kept.subscribers r tx) fun opened => opened.1.symm
      flights := fun r flight => handleCommand_flights m.loop swarm first kept.flights
      tasks }
  | @event event idle =>
    refine { kept with subscribers := ?_, flights := ?_, tasks }
    · intro r tx subscribed
      change (m.loop.handleEvent X event).1.bidSubscribers r = some tx at subscribed
      rw [handleEvent_subscribers] at subscribed
      exact kept.subscribers r tx subscribed
    · intro r flight present
      exact kept.flights r flight (event_flights event idle present)
  | @external command alive room =>
    exact { kept with
      commands := external_commands kept.commands handle
      tasks }
  | forward idle => exact { kept with tasks }
  | execute free known => exact { kept with tasks }

theorem bidsTraced {key : C.SigningKey} {pgPool settlementTx : Bool} {archive : ReceiptArchive} {ttl : UInt64}
    {w : World C} {trace : List (World C × Label)}
    (run : Runs X (World.start (EventLoop.new key pgPool settlementTx) archive ttl) trace w)
    (handle : ∀ step ∈ trace, step.2.handleOnly) : BidsTraced X trace w := by
  have empty : BidsTraced X trace (World.start (EventLoop.new key pgPool settlementTx) archive ttl) := by
    refine ⟨?_, ?_, ?_, ?_, ?_, ?_, fun _ => trivial⟩ <;>
      simp [World.start, EventLoop.new, BidsFor]
  exact run.invariant empty fun m label n member step kept => kept.step member (handle _ member) step

/-- Every bid message that can still enter an auction with an address was published by the peer it
    names. -/
def AuthorsOwnBid (X : Externals) (step : World C × Label) : Prop :=
  ∀ source message nowMs bid tx, step.2 = .event (.gossip source message nowMs) →
    message.topic = Topics.bids → X.bidFromSlice message.data = some bid →
    step.1.loop.bidSubscribers bid.requestId = some tx → bid.payoutAddress ≠ "" →
    message.source = some ⟨bid.nodePeerId.value⟩

/-- In every run whose bid messages name their own author, a recorded payout address was published
    for the request by the payee itself. -/
theorem payout_addresses_from_payee (X : Externals) (key : C.SigningKey) (pgPool settlementTx : Bool)
    (archive : ReceiptArchive) (ttl : UInt64) (w : World C) (trace : List (World C × Label))
    (run : Runs X (World.start (EventLoop.new key pgPool settlementTx) archive ttl) trace w)
    (handle : ∀ step ∈ trace, step.2.handleOnly) (own : ∀ step ∈ trace, AuthorsOwnBid X step) :
    ∀ r flight p a, w.loop.inFlight r = some flight → flight.payoutAddresses p = some a →
      ∃ m source message nowMs bid, (m, Label.event (.gossip source message nowMs)) ∈ trace ∧
        message.topic = Topics.bids ∧ X.bidFromSlice message.data = some bid ∧ bid.requestId = r ∧
        bid.payoutAddress = a ∧ message.source = some ⟨p⟩ := by
  intro r flight p a present mapped
  obtain ⟨bids, delivered, same⟩ := (bidsTraced run handle).flights r flight present
  rw [same] at mapped
  obtain ⟨bid, inside, peer, address, nonempty⟩ := bid_of_payoutAddresses mapped
  obtain ⟨request, m, source, message, nowMs, tx, member, topic, parsed, subscribed⟩ := delivered bid inside
  have author := own _ member source message nowMs bid tx rfl topic parsed subscribed nonempty
  rw [peer] at author
  exact ⟨m, source, message, nowMs, bid, member, topic, parsed, request, address, author⟩

def sampleChat : ChatCompletionRequest where
  model := "qwen-72b"
  messages := [⟨"user", "hello"⟩]
  clientPubkeyHex := ""
  maxPriceNanox := none
  privacy := none
  sessionId := some sampleRequest.sessionId
  clientX25519PubkeyHex := none
  messagesEncrypted := none
  messagesNonce := none
  sessionKey := none
  memwalContext := none

def chatRequest (r : RequestId) : InferenceRequest :=
  ⟨r, sampleRequest.sessionId, "qwen-72b", parsePrivacy none, .continued⟩

def Asks (X : Externals) (key : C.SigningKey) (req : ChatCompletionRequest) (r : RequestId)
    (tx : OneshotId) (rx : BidChannelId) (collected : List InferenceBid → Task Unit) : Prop :=
  ∃ named, serveChat X C key false req = .call .newUuid named ∧
    ∃ opened, named r = .call (.newOneshot r) opened ∧
      ∃ sent, opened tx = .call (.sendCommand (.publish (chatRequest r) tx)) sent ∧
        ∃ published, sent true = .call (.awaitPublish tx) published ∧
          published (.ok rx) = .call (.collectBids rx) collected

theorem sampleChat_asks (X : Externals) (key : C.SigningKey) (r : RequestId) (bid : InferenceBid)
    (tx : OneshotId) (rx : BidChannelId) :
    ∃ collected, Asks X key sampleChat r tx rx collected ∧
      ∃ recorded, collected [bid] =
        .call (.sendCommand (.setPayoutAddresses r (payoutAddresses [bid]))) recorded :=
  ⟨_, ⟨_, rfl, _, rfl, _, rfl, _, rfl, rfl⟩, _, rfl⟩

theorem sendCommand_sent (X : Externals) {w : World C} (idle : w.tasks .eventLoop = .done ())
    (drained : w.commands = []) (command : MeshCommand) :
    w.perform X (.sendCommand command) true = some { w with commands := [command] } := by
  have room : !w.loopGone ∧ w.commands.length < commandCapacity := by
    rw [World.loopGone, idle, drained]
    decide
  rw [World.perform, if_pos room, drained, List.nil_append]

/-- What one call and the event loop leave alone while they serve its request. -/
structure Aside (k : Nat) (r : RequestId) (w w' : World C) : Prop where
  chats : ∀ j, j ≠ k → w'.tasks (.chat j) = w.tasks (.chat j)
  abandoned : w'.abandoned = w.abandoned
  bids : ∀ rx, rx.request ≠ r → w'.bids rx = w.bids rx
  flights : ∀ s, s ≠ r → w'.loop.inFlight s = w.loop.inFlight s
  options : w'.loop.enclaveKey = w.loop.enclaveKey ∧ w'.loop.pgPool = w.loop.pgPool

theorem Aside.trans {k : Nat} {r : RequestId} {w m n : World C} (first : Aside k r w m) (second : Aside k r m n) :
    Aside k r w n where
  chats j apart := (second.chats j apart).trans (first.chats j apart)
  abandoned := second.abandoned.trans first.abandoned
  bids rx apart := (second.bids rx apart).trans (first.bids rx apart)
  flights s apart := (second.flights s apart).trans (first.flights s apart)
  options := ⟨second.options.1.trans first.options.1, second.options.2.trans first.options.2⟩

theorem reach_joined (X : Externals) (w : World C) (k : Nat) (request : InferenceRequest) {opened : OneshotId → Task Unit}
    {sent : Bool → Task Unit} {published : Except String BidChannelId → Task Unit}
    {collected : List InferenceBid → Task Unit} (idle : w.tasks .eventLoop = .done ()) (drained : w.commands = [])
    (heard : w.abandoned ⟨request.requestId, w.serial⟩ = false)
    (channel : w.bids ⟨request.requestId, w.serial + 1⟩ = ⟨[], [], true⟩)
    (opening : w.tasks (.chat k) = .call (.newOneshot request.requestId) opened)
    (sending : opened ⟨request.requestId, w.serial⟩ =
      .call (.sendCommand (.publish request ⟨request.requestId, w.serial⟩)) sent)
    (awaiting : sent true = .call (.awaitPublish ⟨request.requestId, w.serial⟩) published)
    (collecting : published (.ok ⟨request.requestId, w.serial + 1⟩) =
      .call (.collectBids ⟨request.requestId, w.serial + 1⟩) collected) :
    ∃ trace w', Runs X w trace w' ∧
      (∀ step ∈ trace, step.2.quiet ∧ step.2.handleOnly ∧ ∀ j, step.2.starts ≠ some (.chat j)) ∧
      (∃ x tx, (x, Label.call (.chat k) (.sendCommand (.publish request tx)) true) ∈ trace) ∧
      publishedIds trace = [request.requestId] ∧ Aside k request.requestId w w' ∧
      w'.loop.pendingInference = w.loop.pendingInference ∧ w'.tasks .eventLoop = .done () ∧ w'.commands = [] ∧
      w'.serial = w.serial + 2 ∧ w'.bids ⟨request.requestId, w.serial + 1⟩ = ⟨[], [], true⟩ ∧
      w'.loop.bidSubscribers request.requestId = some ⟨request.requestId, w.serial + 1⟩ ∧
      w'.loop.inFlight request.requestId = some (flightOf request fun _ => none) ∧
      w'.loop.pgPool = w.loop.pgPool ∧
      w'.tasks (.chat k) = .call (.collectBids ⟨request.requestId, w.serial + 1⟩) collected := by
  let tx : OneshotId := ⟨request.requestId, w.serial⟩
  let rx : BidChannelId := ⟨request.requestId, w.serial + 1⟩
  let command : MeshCommand := .publish request tx
  let replying : World C := { w with serial := w.serial + 1 }.setTask (.chat k) (opened tx)
  let asked : World C := { replying with commands := [command] }.setTask (.chat k) (sent true)
  let flying : World C := asked.handled command asked.swarmAnswers
  let replied : World C := { flying with
    publishReplies := Function.update flying.publishReplies tx (some (.ok rx)) }.setTask .eventLoop (.done ())
  let waiting : World C := replied.setTask (.chat k) (published (.ok rx))
  have fresh : w.perform X (.newOneshot request.requestId) tx = some { w with serial := w.serial + 1 } :=
    if_pos rfl
  have first : Step X w (.call (.chat k) (.newOneshot request.requestId) tx) replying := .call opening fresh
  have sending' : replying.tasks (.chat k) = .call (.sendCommand command) sent := by
    rw [← sending]
    exact World.setTask_same _ _ _
  have still : replying.tasks .eventLoop = .done () := idle
  have clear : replying.commands = [] := drained
  have second : Step X replying (.call (.chat k) (.sendCommand command) true) asked :=
    .call sending' (sendCommand_sent X still clear command)
  have third : Step X asked (.command command asked.swarmAnswers) flying := .command idle rfl rfl rfl
  have reply : flying.perform X (.replyPublish tx (.ok rx)) () = some { flying with
      publishReplies := Function.update flying.publishReplies tx (some (.ok rx)) } := by
    have listening : flying.abandoned tx = false := heard
    simp only [World.perform, listening]
    rfl
  have fourth : Step X flying (.call .eventLoop (.replyPublish tx (.ok rx)) ()) replied := .call rfl reply
  have awaiting' : replied.tasks (.chat k) = .call (.awaitPublish tx) published := by
    have apart : TaskId.chat k ≠ .eventLoop := by simp
    rw [← awaiting]
    simp only [replied, flying, World.handled, asked, World.setTask, Function.update_of_ne apart, Function.update_self]
  have ready : replied.perform X (.awaitPublish tx) (.ok rx) = some replied :=
    if_pos (.inl (Function.update_self _ _ _))
  have fifth : Step X replied (.call (.chat k) (.awaitPublish tx) (.ok rx)) waiting := .call awaiting' ready
  refine ⟨_, waiting, .cons first (.cons second (.cons third (.cons fourth (.one fifth)))), ?_, ⟨replying, tx, ?_⟩,
    rfl, ?_, rfl, rfl, rfl, rfl, channel, ?_, ?_, rfl, ?_⟩
  · intro step member
    simp only [List.mem_cons, List.not_mem_nil, or_false] at member
    rcases member with rfl | rfl | rfl | rfl | rfl
    all_goals
      refine ⟨rfl, trivial, ?_⟩
      intro j started
      cases started
  · exact List.mem_cons_of_mem _ List.mem_cons_self
  · constructor
    · intro j apart
      have other : TaskId.chat j ≠ .chat k := fun same => apart (TaskId.chat.inj same)
      have loop : TaskId.chat j ≠ .eventLoop := by simp
      simp only [waiting, replied, flying, World.handled, asked, replying, World.setTask, Function.update_of_ne other,
        Function.update_of_ne loop]
    · rfl
    · exact fun _ _ => rfl
    · exact fun s apart => Function.update_of_ne apart _ _
    · exact ⟨rfl, rfl⟩
  · exact Function.update_self _ _ _
  · exact Function.update_self _ _ _
  · rw [← collecting]
    exact World.setTask_same _ _ _

theorem reach_called (X : Externals) (w : World C) (k : Nat) {key : C.SigningKey} {req : ChatCompletionRequest}
    {r : RequestId} {collected : List InferenceBid → Task Unit} (free : w.tasks (.chat k) = .done ())
    (idle : w.tasks .eventLoop = .done ()) (drained : w.commands = []) (heard : w.abandoned ⟨r, w.serial⟩ = false)
    (channel : w.bids ⟨r, w.serial + 1⟩ = ⟨[], [], true⟩)
    (options : w.loop.enclaveKey = key ∧ w.loop.pgPool = false)
    (asks : Asks X key req r ⟨r, w.serial⟩ ⟨r, w.serial + 1⟩ collected) :
    ∃ trace w', Runs X w trace w' ∧ (∀ step ∈ trace, step.2.quiet ∧ step.2.handleOnly) ∧ publishedIds trace = [r] ∧
      Aside k r w w' ∧ w'.loop.pendingInference = w.loop.pendingInference ∧ w'.tasks .eventLoop = .done () ∧
      w'.commands = [] ∧ w'.serial = w.serial + 2 ∧ w'.bids ⟨r, w.serial + 1⟩ = ⟨[], [], true⟩ ∧
      w'.loop.bidSubscribers r = some ⟨r, w.serial + 1⟩ ∧
      w'.loop.inFlight r = some (flightOf (chatRequest r) fun _ => none) ∧ w'.loop.pgPool = w.loop.pgPool ∧
      w'.tasks (.chat k) = .call (.collectBids ⟨r, w.serial + 1⟩) collected := by
  obtain ⟨named, serving, opened, naming, sent, sending, published, awaiting, collecting⟩ := asks
  let arrived : World C := w.setTask (.chat k) (serveChat X C w.loop.enclaveKey w.loop.pgPool req)
  let identified : World C := arrived.setTask (.chat k) (named r)
  have first : Step X w (.request k req) arrived := .request free
  have second : Step X arrived (.call (.chat k) .newUuid r) identified := by
    refine .call ?_ rfl
    rw [World.setTask_same, options.1, options.2, serving]
  have opening : identified.tasks (.chat k) = .call (.newOneshot r) opened := by
    rw [← naming]
    exact World.setTask_same _ _ _
  have begun : Aside k r w identified := by
    refine ⟨fun j apart => ?_, rfl, fun _ _ => rfl, fun _ _ => rfl, rfl, rfl⟩
    have other : TaskId.chat j ≠ .chat k := fun same => apart (TaskId.chat.inj same)
    rw [World.setTask_other other, World.setTask_other other]
  obtain ⟨trace, w', run, calm, _, sole, aside, rest⟩ :=
    reach_joined X identified k (chatRequest r) idle drained heard channel opening sending awaiting collecting
  refine ⟨_, w', .cons first (.cons second run), ?_, sole, begun.trans aside, rest⟩
  simp only [List.mem_cons]
  intro step given
  rcases given with rfl | rfl | inside
  · exact ⟨rfl, trivial⟩
  · exact ⟨rfl, trivial⟩
  · exact ⟨(calm step inside).1, (calm step inside).2.1⟩

theorem reach_auction (X : Externals) (key : C.SigningKey) (archive : ReceiptArchive)
    (req : ChatCompletionRequest) (r : RequestId) {collected : List InferenceBid → Task Unit}
    (asks : Asks X key req r ⟨r, 0⟩ ⟨r, 1⟩ collected) :
    ∃ trace w, Runs X (World.start (EventLoop.new key false false) archive 60000) trace w ∧
      (∀ step ∈ trace, step.2.quiet ∧ step.2.handleOnly) ∧ publishedIds trace = [r] ∧
      Aside 0 r (World.start (EventLoop.new key false false) archive 60000) w ∧
      w.tasks .eventLoop = .done () ∧ w.commands = [] ∧ w.serial = 2 ∧ w.bids ⟨r, 1⟩ = ⟨[], [], true⟩ ∧
      w.loop.bidSubscribers r = some ⟨r, 1⟩ ∧ w.loop.inFlight r = some (flightOf (chatRequest r) fun _ => none) ∧
      w.loop.pgPool = false ∧ w.tasks (.chat 0) = .call (.collectBids ⟨r, 1⟩) collected := by
  obtain ⟨trace, w, run, calm, sole, aside, _, rest⟩ :=
    reach_called X (World.start (EventLoop.new key false false) archive 60000) 0 rfl rfl rfl rfl rfl ⟨rfl, rfl⟩ asks
  exact ⟨trace, w, run, calm, sole, aside, rest⟩

theorem reach_recorded (X : Externals) (w : World C) {r : RequestId} {rx : BidChannelId}
    {flight : InFlightMeta} {bid : InferenceBid} {message : GossipMessage}
    {collected : List InferenceBid → Task Unit} {recorded : Bool → Task Unit}
    (idle : w.tasks .eventLoop = .done ()) (drained : w.commands = [])
    (opened : w.bids rx = ⟨[], [], true⟩) (subscribed : w.loop.bidSubscribers r = some rx)
    (present : w.loop.inFlight r = some flight)
    (collecting : w.tasks (.chat 0) = .call (.collectBids rx) collected)
    (recording : collected [bid] =
      .call (.sendCommand (.setPayoutAddresses r (payoutAddresses [bid]))) recorded)
    (topic : message.topic = Topics.bids) (parsed : X.bidFromSlice message.data = some bid)
    (request : bid.requestId = r) (source : PeerId) (nowMs : UInt64) :
    ∃ trace w', Runs X w ((w, .event (.gossip source message nowMs)) :: trace) w' ∧
      (∀ step ∈ trace, step.2.quiet ∧ step.2.handleOnly ∧ ∀ k, step.2.starts ≠ some (.chat k)) ∧
      publishedIds trace = [] ∧ (rx.request = r → Aside 0 r w w') ∧
      w'.tasks .eventLoop = .done () ∧ w'.commands = [] ∧ w'.serial = w.serial + 1 ∧
      w'.loop.pgPool = w.loop.pgPool ∧ w'.tasks (.chat 0) = recorded true ∧
      w'.loop.inFlight r = some { flight with payoutAddresses := payoutAddresses [bid] } ∧
      w'.loop.bidSubscribers = w.loop.bidSubscribers := by
  let command : MeshCommand := .setPayoutAddresses r (payoutAddresses [bid])
  have gossip : w.loop.handleEvent X (.gossip source message nowMs) =
      (w.loop, .call (.sendBid rx bid) fun _ => .done ()) := by
    simp only [EventLoop.handleEvent, EventLoop.handleGossipMessage, topic, parsed, request, subscribed]
    rfl
  let offered := w.notified X (.gossip source message nowMs)
  let queued : World C := { offered with
    bids := Function.update offered.bids rx ⟨[bid], [], true⟩ }.setTask .eventLoop (.done ())
  let received : World C := queued.receiveBid rx bid []
  let closed : World C := (received.closeBids rx).setTask (.chat 0) (collected [bid])
  let sent : World C := { closed with commands := [command] }.setTask (.chat 0) (recorded true)
  have sending : offered.tasks .eventLoop = .call (.sendBid rx bid) fun _ => .done () := by
    simp only [offered, World.notified, World.setTask_same, gossip]
  have room : offered.perform X (.sendBid rx bid) true =
      some { offered with bids := Function.update offered.bids rx ⟨[bid], [], true⟩ } := by
    have channel : offered.bids rx = ⟨[], [], true⟩ := opened
    simp only [World.perform, channel, List.length_nil, List.nil_append]
    exact if_pos ⟨trivial, by decide⟩
  have waiting : queued.tasks (.chat 0) = .call (.collectBids rx) collected := collecting
  have held : (queued.bids rx).queue = [bid] := by
    simp only [queued, World.setTask, Function.update_self]
  have bids : received.perform X (.collectBids rx) [bid] = some (received.closeBids rx) := by
    apply if_pos
    simp only [received, World.receiveBid, queued, World.setTask, Function.update_self, List.nil_append]
  have recording' : closed.tasks (.chat 0) = .call (.sendCommand command) recorded := by
    rw [← recording]
    exact World.setTask_same _ _ _
  have loop : sent.loop = w.loop := by
    change (w.loop.handleEvent X (.gossip source message nowMs)).1 = w.loop
    rw [gossip]
  have first : Step X w (.event (.gossip source message nowMs)) offered := .event idle
  have second : Step X offered (.call .eventLoop (.sendBid rx bid) true) queued := .call sending room
  have third : Step X queued (.receive 0 rx bid) received := .receive waiting held
  have fourth : Step X received (.call (.chat 0) (.collectBids rx) [bid]) closed := .call waiting bids
  have clear : closed.commands = [] := drained
  have still : closed.tasks .eventLoop = .done () := rfl
  have fifth : Step X closed (.call (.chat 0) (.sendCommand command) true) sent :=
    .call recording' (sendCommand_sent X still clear command)
  have sixth : Step X sent (.command command sent.swarmAnswers) (sent.handled command sent.swarmAnswers) :=
    .command rfl rfl rfl rfl
  refine ⟨_, _, .cons first (.cons second (.cons third (.cons fourth (.cons fifth (.one sixth))))), ?_, rfl,
    ?_, ?_, rfl, rfl, ?_, ?_, ?_, ?_⟩
  · intro step member
    simp only [List.mem_cons, List.not_mem_nil, or_false] at member
    rcases member with rfl | rfl | rfl | rfl | rfl
    all_goals
      refine ⟨rfl, trivial, ?_⟩
      intro k started
      cases started
  · intro own
    constructor
    · intro j apart
      have other : TaskId.chat j ≠ .chat 0 := fun same => apart (TaskId.chat.inj same)
      have loop : TaskId.chat j ≠ .eventLoop := by simp
      simp only [World.handled, sent, closed, World.closeBids, received, World.receiveBid, queued, offered,
        World.notified, World.setTask, Function.update_of_ne other, Function.update_of_ne loop]
    · rfl
    · intro other apart
      have elsewhere : other ≠ rx := fun same => apart (same ▸ own)
      simp only [World.handled, sent, closed, World.closeBids, received, World.receiveBid, queued, offered,
        World.notified, World.setTask, Function.update_of_ne elsewhere]
    · intro s apart
      simp only [World.handled, World.setTask, EventLoop.handleCommand, command, loop, present,
        Function.update_of_ne apart]
    · simp only [World.handled, World.setTask, EventLoop.handleCommand, command, loop, present]
      exact ⟨trivial, trivial⟩
  · simp only [World.handled, World.setTask_same, EventLoop.handleCommand, command, loop, present]
  · simp only [World.handled, World.setTask, EventLoop.handleCommand, command, loop, present]
  · rfl
  · simp only [World.handled, World.setTask, EventLoop.handleCommand, command, loop, present,
      Function.update_self]
  · simp only [World.handled, World.setTask, EventLoop.handleCommand, command, loop, present]

theorem reach_bid (X : Externals) (key : C.SigningKey) (bid : InferenceBid) (message : GossipMessage)
    (topic : message.topic = Topics.bids) (parsed : X.bidFromSlice message.data = some bid)
    (source : PeerId) :
    ∃ before m after w flight,
      Runs X (World.start (EventLoop.new key false false) (.inMemory fun _ => none) 60000)
        (before ++ (m, .event (.gossip source message 1700000000000)) :: after) w ∧
      (∀ step ∈ before, step.2.quiet ∧ step.2.handleOnly) ∧
      (∀ step ∈ after, step.2.quiet ∧ step.2.handleOnly) ∧
      w.loop.inFlight bid.requestId = some flight ∧ flight.payoutAddresses = payoutAddresses [bid] := by
  obtain ⟨collected, asks, recorded, recording⟩ := sampleChat_asks X key bid.requestId bid
    ⟨bid.requestId, 0⟩ ⟨bid.requestId, 1⟩
  obtain ⟨before, m, left, early, _, _, idle, drained, _, opened, subscribed, present, _, collecting⟩ :=
    reach_auction X key (.inMemory fun _ => none) sampleChat bid.requestId asks
  obtain ⟨after, w, right, late, _, _, _, _, _, _, _, mapped, _⟩ := reach_recorded X m idle drained opened subscribed present
    collecting recording topic parsed rfl source 1700000000000
  refine ⟨before, m, after, w, _, left.append right, early, fun step inside => ?_, mapped, rfl⟩
  exact ⟨(late step inside).1, (late step inside).2.1⟩

theorem single_gossip {before after : List (World C × Label)} {m n : World C} {source other : PeerId}
    {message another : GossipMessage} {nowMs nowMs' : UInt64}
    (early : ∀ step ∈ before, step.2.quiet ∧ step.2.handleOnly)
    (late : ∀ step ∈ after, step.2.quiet ∧ step.2.handleOnly)
    (member : (n, Label.event (.gossip other another nowMs')) ∈
      before ++ (m, .event (.gossip source message nowMs)) :: after) : another = message := by
  rcases List.mem_append.mp member with inside | inside
  · cases (early _ inside).1
  · rcases List.mem_cons.mp inside with same | inside
    · rw [Prod.mk.injEq, Label.event.injEq, Event.gossip.injEq] at same
      exact same.2.2.1
    · cases (late _ inside).1

theorem single_handleOnly {before after : List (World C × Label)} {m : World C} {event : Event}
    (early : ∀ step ∈ before, step.2.quiet ∧ step.2.handleOnly)
    (late : ∀ step ∈ after, step.2.quiet ∧ step.2.handleOnly) :
    ∀ step ∈ before ++ (m, Label.event event) :: after, step.2.handleOnly := by
  intro step member
  rcases List.mem_append.mp member with inside | inside
  · exact (early step inside).2
  · rcases List.mem_cons.mp inside with rfl | inside
    · exact trivial
    · exact (late step inside).2

def sampleBidText : String :=
  "\x7b\"request_id\":\"00000000-0000-0000-0000-000000000000\",\"node_peer_id\":\"12D3KooWPeerNode1\"," ++
  "\"price_per_1k\":10,\"latency_ms\":100,\"reputation\":0.5,\"http_endpoint\":\"http://10.0.0.9:4002\"," ++
  "\"payout_address\":\"0x0bad\"\x7d"

def sampleBid : InferenceBid where
  requestId := sampleRequest.requestId
  nodePeerId := ⟨"12D3KooWPeerNode1"⟩
  pricePer1k := ⟨10⟩
  latencyMs := 100
  reputation := 1 / 2
  httpEndpoint := "http://10.0.0.9:4002"
  payoutAddress := "0x0bad"
  nodeX25519Pubkey := none

def bidMessage (author : String) : GossipMessage :=
  ⟨some ⟨author⟩, sampleBidText.toUTF8.toList, Topics.bids⟩

/-- Reads the sample text as serde_json does. -/
def readSampleBid (data : List UInt8) : Option InferenceBid :=
  if data = sampleBidText.toUTF8.toList then some sampleBid else none

theorem sampleBid_recorded : payoutAddresses [sampleBid] "12D3KooWPeerNode1" = some "0x0bad" := by
  simp [payoutAddresses, sampleBid]

/-- A stranger bids in the name of a node and has the node's payout sent to itself. -/
theorem forged_bid_redirects_payout :
    let C := Primitives.marking []
    let X := Externals.serde readSampleBid fun text => .ok ⟨text⟩
    ∃ trace w flight,
      Runs X (World.start (EventLoop.new (C := C) (Vector.replicate 32 0) false false)
        (.inMemory fun _ => none) 60000) trace w ∧
      (∀ step ∈ trace, step.2.handleOnly) ∧
      w.loop.inFlight sampleRequest.requestId = some flight ∧
      flight.payoutAddresses "12D3KooWPeerNode1" = some "0x0bad" ∧
      ∀ m source message nowMs, (m, Label.event (.gossip source message nowMs)) ∈ trace →
        message.source = some ⟨"12D3KooWStranger"⟩ := by
  intro C X
  obtain ⟨before, m, after, w, flight, run, early, late, present, mapped⟩ :=
    reach_bid X (C := C) (Vector.replicate 32 0) sampleBid (bidMessage "12D3KooWStranger") rfl
      (if_pos rfl) ⟨"12D3KooWStranger"⟩
  refine ⟨_, w, flight, run, single_handleOnly early late, present, ?_, ?_⟩
  · rw [mapped]
    exact sampleBid_recorded
  · intro n source message nowMs member
    rw [single_gossip early late member]
    rfl

theorem own_bid_recorded :
    let C := Primitives.marking []
    let X := Externals.serde readSampleBid fun text => .ok ⟨text⟩
    ∃ trace w flight m source message nowMs,
      Runs X (World.start (EventLoop.new (C := C) (Vector.replicate 32 0) false false)
        (.inMemory fun _ => none) 60000) trace w ∧
      w.loop.inFlight sampleRequest.requestId = some flight ∧
      flight.payoutAddresses "12D3KooWPeerNode1" = some "0x0bad" ∧
      (m, Label.event (.gossip source message nowMs)) ∈ trace ∧
      message.source = some ⟨"12D3KooWPeerNode1"⟩ := by
  intro C X
  obtain ⟨before, m, after, w, flight, run, early, late, present, mapped⟩ :=
    reach_bid X (C := C) (Vector.replicate 32 0) sampleBid (bidMessage "12D3KooWPeerNode1") rfl
      (if_pos rfl) ⟨"12D3KooWPeerNode1"⟩
  have recorded : flight.payoutAddresses "12D3KooWPeerNode1" = some "0x0bad" := by
    rw [mapped]
    exact sampleBid_recorded
  have own : ∀ step ∈ before ++ (m, Label.event (.gossip ⟨"12D3KooWPeerNode1"⟩
      (bidMessage "12D3KooWPeerNode1") 1700000000000)) :: after, AuthorsOwnBid X step := by
    intro step member source message nowMs bid tx shape topic parsed _ _
    rcases step with ⟨state, label⟩
    change label = _ at shape
    subst shape
    rw [single_gossip early late member] at parsed ⊢
    rw [show X.bidFromSlice (bidMessage "12D3KooWPeerNode1").data = some sampleBid from if_pos rfl] at parsed
    cases parsed
    rfl
  obtain ⟨n, source, message, nowMs, bid, member, _, _, _, _, author⟩ :=
    payout_addresses_from_payee X _ false false _ _ w _ run (single_handleOnly early late) own
      sampleRequest.requestId flight _ _ present recorded
  exact ⟨_, w, flight, n, source, message, nowMs, run, present, recorded, member, author⟩

end Coordinator
