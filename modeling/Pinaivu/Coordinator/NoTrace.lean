import Pinaivu.Coordinator.BidOrigin
import Pinaivu.Coordinator.ChatPhases

namespace Coordinator

open Protocol Crypto Async

variable {C : Primitives} {X : Externals} {m n x w : World C} {label : Label}
  {during : List (World C × Label)} {k : Nat}

def userMessage (X : Externals) (req : ChatCompletionRequest) : Except AppError String :=
  decryptMessagesIfEncrypted X req >>= newUserMessage

def Call.commanding (op : Call) : Prop := ∃ command, op = .sendCommand command

def Call.refusing (op : Call) : Prop := ∃ e, op = .httpResponse (.error (.badRequest e))

theorem publishError_not_badRequest (e : String) (text : String) : publishError e ≠ .badRequest text := by
  unfold publishError
  split <;> nofun

theorem decodeHexPubkey_error {s : String} {e : AppError} (undecoded : decodeHexPubkey s = .error e) :
    ∃ text, e = .badRequest text := by
  unfold decodeHexPubkey at undecoded
  split at undecoded
  · cases undecoded
    exact ⟨_, rfl⟩
  · split at undecoded
    · cases undecoded
      exact ⟨_, rfl⟩
    · cases undecoded

theorem serveChat_read {req : ChatCompletionRequest} {message : String} (read : userMessage X req = .ok message)
    (key : C.SigningKey) (pool : Bool) :
    serveChat X C key pool req = .call .newUuid fun r => (sessionOf req.sessionId).bind fun session =>
      (runAuction X C key pool req ⟨r, session.1, req.model, parsePrivacy req.privacy, session.2⟩ message).bind
        fun result => call (.httpResponse result) := by
  unfold userMessage at read
  unfold serveChat chatCompletions
  rw [read]
  cases req.sessionId <;> rfl

theorem serveChat_unread {req : ChatCompletionRequest} {e : AppError} (unread : userMessage X req = .error e)
    (key : C.SigningKey) (pool : Bool) :
    serveChat X C key pool req = .call .newUuid fun _ => (sessionOf req.sessionId).bind fun _ =>
      call (.httpResponse (.error e)) := by
  unfold userMessage at unread
  unfold serveChat chatCompletions
  rw [unread]
  cases req.sessionId <;> rfl

theorem unread_sends_nothing {req : ChatCompletionRequest} {e : AppError} (unread : userMessage X req = .error e)
    (key : C.SigningKey) (pool : Bool) :
    (serveChat X C key pool req).Sat (fun op => ¬ op.commanding) (fun _ _ => True) fun _ => True := by
  rw [serveChat_unread unread]
  refine ⟨nofun, fun _ _ => (sessionOf_sat nofun req.sessionId).seq fun _ _ => ?_⟩
  exact ⟨nofun, fun _ _ => trivial⟩

def NotRefused (result : Except AppError ChatCompletionResult) : Prop := ∀ e, result ≠ .error (.badRequest e)

theorem dispatchToWinner_notRefused {req : ChatCompletionRequest} {clientPubkey : PublicKey}
    (decoded : decodeHexPubkey req.clientPubkeyHex = .ok clientPubkey) (key : C.SigningKey) (requestId : RequestId)
    (sessionId : SessionId) (message : String) (winner : InferenceBid) :
    (dispatchToWinner X C key req requestId sessionId message winner).Sat (fun op => ¬ op.refusing)
      (fun _ _ => True) NotRefused := by
  unfold dispatchToWinner
  rw [decoded]
  refine ⟨nofun, fun nowMs _ => (sessionKeyOr_sat nofun req.sessionKey).seq fun sessionKey _ => ?_⟩
  cases X.parsePeerId winner.nodePeerId.value with
  | error e => exact nofun
  | ok peer =>
    refine (dispatchInference_sat peer nofun (fun _ => nofun) fun _ => nofun).seq fun reply _ => ?_
    cases reply with
    | error e => exact nofun
    | ok reply =>
      dsimp only
      cases reply.error <;> exact nofun

theorem runAuction_notRefused {req : ChatCompletionRequest} {clientPubkey : PublicKey}
    (decoded : decodeHexPubkey req.clientPubkeyHex = .ok clientPubkey) (key : C.SigningKey) (pool : Bool)
    (request : InferenceRequest) (message : String) :
    (runAuction X C key pool req request message).Sat (fun op => ¬ op.refusing) (fun _ _ => True)
      NotRefused := by
  refine ⟨nofun, fun tx _ => ⟨nofun, fun sent _ => ?_⟩⟩
  cases sent with
  | false => exact fun e refused => publishError_not_badRequest _ e (Except.error.inj refused)
  | true =>
    refine ⟨nofun, fun joined _ => ?_⟩
    cases joined with
    | error text => exact fun e refused => publishError_not_badRequest text e (Except.error.inj refused)
    | ok rx =>
      refine ⟨nofun, fun bids _ => (fetchWarmthMap_sat nofun pool).seq fun found _ => ?_⟩
      cases pickWinnerWithWarmth bids found with
      | none => exact nofun
      | some winner =>
        exact ⟨nofun, fun _ _ => dispatchToWinner_notRefused decoded key _ _ message winner⟩

theorem decoded_not_refused {req : ChatCompletionRequest} {message : String} {clientPubkey : PublicKey}
    (read : userMessage X req = .ok message) (decoded : decodeHexPubkey req.clientPubkeyHex = .ok clientPubkey)
    (key : C.SigningKey) (pool : Bool) :
    (serveChat X C key pool req).Sat (fun op => ¬ op.refusing) (fun _ _ => True) fun _ => True := by
  rw [serveChat_read read]
  refine ⟨nofun, fun r _ => (sessionOf_sat nofun req.sessionId).seq fun session _ => ?_⟩
  refine (runAuction_notRefused decoded key pool _ message).seq fun result kept => ⟨?_, fun _ _ => trivial⟩
  intro given
  obtain ⟨e, shape⟩ := given
  cases shape
  exact kept e rfl

variable {id : TaskId}

theorem calls_sat {guarantee : Call → Prop} (run : Runs X n during x)
    (still : ∀ step ∈ during, step.2.starts ≠ some id)
    (first : (n.tasks id).Sat guarantee (fun _ _ => True) fun _ => True) :
    ((x.tasks id).Sat guarantee (fun _ _ => True) fun _ => True) ∧
      ∀ y op answer, (y, Label.call id op answer) ∈ during → guarantee op := by
  refine run.history (I := fun trace x => (x.tasks id).Sat guarantee (fun _ _ => True) (fun _ => True) ∧
    ∀ y op answer, (y, Label.call id op answer) ∈ trace → guarantee op) ⟨first, fun _ _ _ => nofun⟩ ?_
  intro before m label n run shape step kept
  rcases step_starts step id with ⟨calls, ⟨_, same⟩ | ⟨starts, _⟩⟩ | ⟨op, rest, answer, _, rfl, waiting, _, moved⟩
  · refine ⟨same ▸ kept.1, fun y op answer member => ?_⟩
    rcases List.mem_append.mp member with inside | last
    · exact kept.2 y op answer inside
    · cases List.mem_singleton.mp last
      exact absurd rfl (calls op answer)
  · exact absurd starts (still _ (Run.last_mem shape))
  · obtain ⟨allowed, later⟩ := kept.1.step waiting answer
    refine ⟨moved ▸ later trivial, fun y op answer member => ?_⟩
    rcases List.mem_append.mp member with inside | last
    · exact kept.2 y op answer inside
    · cases List.mem_singleton.mp last
      exact allowed

theorem step_bidSubscribers (step : Step X m label n) (untaken : label.takes = none) :
    n.loop.bidSubscribers = m.loop.bidSubscribers := by
  cases step with
  | cancel k => rw [(dropChat_keeps m k).1]
  | call waiting answered => exact congrArg EventLoop.bidSubscribers (perform_effect answered).loop
  | command idle queued fresh outFresh => cases untaken
  | event idle => exact handleEvent_subscribers m.loop _
  | _ => rfl

/-- The call is the only one to send the event loop commands, and no ack arrives. -/
def LeftAlone (k : Nat) (label : Label) : Prop :=
  (∀ command, label.sends = some command → ∃ op answer, label = .call (.chat k) op answer) ∧
    ∀ sender ack channel nowMs, label ≠ .event (.completion sender ack channel nowMs)

theorem LeftAlone.silent (alone : LeftAlone k label)
    (nothing : ∀ command answer, label ≠ .call (.chat k) (.sendCommand command) answer) : label.sends = none := by
  cases sent : label.sends with
  | none => rfl
  | some command =>
    obtain ⟨op, answer, rfl⟩ := alone.1 command sent
    cases op with
    | sendCommand other => exact absurd rfl (nothing other answer)
    | _ => cases sent

theorem tables_kept (run : Runs X n during x) (drained : n.commands = [])
    (silent : ∀ step ∈ during, step.2.sends = none)
    (unacked : ∀ step ∈ during, ∀ sender ack channel nowMs, step.2 ≠ .event (.completion sender ack channel nowMs)) :
    x.commands = [] ∧ publishedIds during = [] ∧ x.loop.inFlight = n.loop.inFlight ∧
      x.loop.bidSubscribers = n.loop.bidSubscribers := by
  refine run.history (I := fun trace x => x.commands = [] ∧ publishedIds trace = [] ∧
    x.loop.inFlight = n.loop.inFlight ∧ x.loop.bidSubscribers = n.loop.bidSubscribers)
    ⟨drained, rfl, rfl, rfl⟩ ?_
  intro before m label y _ shape step given
  obtain ⟨clear, unpublished, flights, subscribers⟩ := given
  have member := Run.last_mem shape
  have queue := step_commands step
  rw [clear, silent _ member] at queue
  have untaken : label.takes = none := by
    cases taken : label.takes with
    | none => rfl
    | some command =>
      rw [taken] at queue
      cases queue
  rw [untaken] at queue
  have quiet : label.publishes = none := by
    cases label with
    | command command swarm => cases untaken
    | _ => rfl
  refine ⟨queue.symm, ?_, ?_, (step_bidSubscribers step untaken).trans subscribers⟩
  · rw [publishedIds_append, unpublished]
    simp [publishedIds, quiet]
  · funext r
    rcases step_inFlight step r with same | published | ⟨_, _, _, rfl, _⟩ | ⟨_, _, _, _, acked, _⟩
    · rw [same, flights]
    · rw [quiet] at published
      cases published
    · cases untaken
    · exact absurd acked (unacked _ member _ _ _ _)

/-- Whenever the call ends in `BadRequest`, it has sent the event loop nothing. If nobody else has either,
    no request is published and `in_flight` and `bid_subscribers` are as they were before the call. -/
def LeavesNoTrace (X : Externals) (key : C.SigningKey) (req : ChatCompletionRequest) : Prop :=
  ∀ pgPool settlementTx archive ttl before (m n : World C) k during x e w,
    Runs X (World.start (EventLoop.new key pgPool settlementTx) archive ttl) before m →
    Step X m (.request k req) n → Runs X n during x → (∀ step ∈ during, step.2.starts ≠ some (.chat k)) →
    Step X x (.call (.chat k) (.httpResponse (.error (.badRequest e))) ()) w →
    (∀ step ∈ during, ∀ command answer, step.2 ≠ .call (.chat k) (.sendCommand command) answer) ∧
      (m.commands = [] → (∀ step ∈ during, LeftAlone k step.2) →
        publishedIds during = [] ∧ w.loop.inFlight = m.loop.inFlight ∧
        w.loop.bidSubscribers = m.loop.bidSubscribers)

theorem silent_refusal_leaves_no_trace {key : C.SigningKey} {req : ChatCompletionRequest}
    (silent : ∀ (key : C.SigningKey) pool,
      (serveChat X C key pool req).Sat (fun op => ¬ op.commanding) (fun _ _ => True) (fun _ => True) ∨
      (serveChat X C key pool req).Sat (fun op => ¬ op.refusing) (fun _ _ => True) fun _ => True) :
    LeavesNoTrace X key req := by
  intro pgPool settlementTx archive ttl before m n k during x e w _ begun meanwhile still refused
  cases begun with
  | request free =>
    rcases silent m.loop.enclaveKey m.loop.pgPool with quiet | served
    · obtain ⟨_, calls⟩ := calls_sat meanwhile still (by rw [World.setTask_same]; exact quiet)
      have nothing : ∀ step ∈ during, ∀ command answer,
          step.2 ≠ .call (.chat k) (.sendCommand command) answer := by
        intro given member command answer same
        obtain ⟨y, label⟩ := given
        subst same
        exact calls y _ answer member ⟨command, rfl⟩
      refine ⟨nothing, fun drained alone => ?_⟩
      obtain ⟨_, unpublished, flights, subscribers⟩ := tables_kept meanwhile drained
        (fun step member => (alone step member).silent (nothing step member)) fun step member => (alone step member).2
      have loop : w.loop = x.loop := by
        cases refused with
        | call waiting answered => exact (perform_effect answered).loop
      rw [loop]
      exact ⟨unpublished, flights, subscribers⟩
    · obtain ⟨left, _⟩ := calls_sat meanwhile still (by rw [World.setTask_same]; exact served)
      cases refused with
      | call waiting answered => exact absurd ⟨e, rfl⟩ (left.step waiting ()).1

theorem reach_named (X : Externals) (w : World C) (r : RequestId) {given : Option SessionId}
    {go : RequestId → SessionId × ClientSessionIntent → Task Unit}
    (serving : w.tasks (.chat 0) = .call .newUuid fun r => (sessionOf given).bind (go r)) :
    ∃ session trace, Runs X w trace (w.setTask (.chat 0) (go r session)) ∧ publishedIds trace = [] ∧
      ∀ step ∈ trace, step.2.quiet ∧ step.2.handleOnly ∧ ∀ k, step.2.starts ≠ some (.chat k) := by
  cases given with
  | some id =>
    refine ⟨(id, .continued), _, .one (.call serving rfl : Step X w (.call (.chat 0) .newUuid r) _), rfl, ?_⟩
    intro step member
    cases List.mem_singleton.mp member
    exact ⟨rfl, trivial, fun _ => nofun⟩
  | none =>
    let named := w.setTask (.chat 0) (.call .newUuid fun id => go r (id, .new))
    have first : Step X w (.call (.chat 0) .newUuid r) named := .call serving rfl
    have second : Step X named (.call (.chat 0) .newUuid sampleRequest.sessionId)
        (named.setTask (.chat 0) (go r (sampleRequest.sessionId, .new))) := .call (World.setTask_same _ _ _) rfl
    have run : Runs X w _ _ := .cons first (.one second)
    rw [World.setTask_setTask] at run
    refine ⟨(sampleRequest.sessionId, .new), _, run, rfl, ?_⟩
    intro step member
    simp only [List.mem_cons, List.not_mem_nil, or_false] at member
    rcases member with rfl | rfl <;> exact ⟨rfl, trivial, fun _ => nofun⟩

theorem reach_refused (X : Externals) (key : C.SigningKey) {req : ChatCompletionRequest} {message e : String}
    (read : userMessage X req = .ok message) (undecoded : decodeHexPubkey req.clientPubkeyHex = .error (.badRequest e))
    {data : List UInt8} {bid : InferenceBid} (parsed : X.bidFromSlice data = some bid) :
    ∃ n during x w,
      Step X (World.start (EventLoop.new key false false) (.inMemory fun _ => none) 60000) (.request 0 req) n ∧
      Runs X n during x ∧ (∀ step ∈ during, step.2.handleOnly ∧ ∀ k, step.2.starts ≠ some (.chat k)) ∧
      Step X x (.call (.chat 0) (.httpResponse (.error (.badRequest e))) ()) w ∧
      (∃ y request tx, (y, Label.call (.chat 0) (.sendCommand (.publish request tx)) true) ∈ during) ∧
      publishedIds during = [bid.requestId] ∧ w.loop.inFlight bid.requestId ≠ none ∧
      w.loop.bidSubscribers bid.requestId ≠ none := by
  let start : World C := World.start (EventLoop.new key false false) (.inMemory fun _ => none) 60000
  let n : World C := start.setTask (.chat 0) (serveChat X C key false req)
  have serving : n.tasks (.chat 0) = _ := (World.setTask_same _ _ _).trans (serveChat_read read key false)
  obtain ⟨session, naming, named, unpublished, calm⟩ := reach_named X n bid.requestId serving
  let request : InferenceRequest := ⟨bid.requestId, session.1, req.model, parsePrivacy req.privacy, session.2⟩
  let auction : World C := n.setTask (.chat 0) ((runAuction X C key false req request message).bind
    fun result => call (.httpResponse result))
  have refusing : (dispatchToWinner X C key req bid.requestId session.1 message bid).bind
      (fun result => call (.httpResponse result)) = .call (.httpResponse (.error (.badRequest e))) .done := by
    unfold dispatchToWinner
    rw [undecoded]
    rfl
  obtain ⟨joining, y, joined, calm', ⟨z, tx, sent⟩, published, _, _, idle, drained, serial, channel, subscribed, present, _,
    collecting⟩ := reach_joined X auction 0 request rfl rfl rfl rfl (World.setTask_same _ _ _) rfl rfl rfl
  let gossip : GossipMessage := ⟨none, data, Topics.bids⟩
  have topic : gossip.topic = Topics.bids := rfl
  have offered : X.bidFromSlice gossip.data = some bid := parsed
  obtain ⟨recording, x, recorded, calm'', unpublished', _, _, _, _, _, chat, flight, kept⟩ :=
    reach_recorded X y idle drained channel subscribed present collecting rfl topic offered rfl
      ⟨"12D3KooWPeerNode1"⟩ 1700000000000
  have waiting : x.tasks (.chat 0) = .call (.httpResponse (.error (.badRequest e))) .done := chat.trans refusing
  have answered : Step X x (.call (.chat 0) (.httpResponse (.error (.badRequest e))) ()) _ := .call waiting rfl
  refine ⟨n, _, x, _, .request rfl, (named.append joined).append recorded, ?_, answered, ⟨z, request, tx, ?_⟩,
    ?_, ?_, ?_⟩
  · simp only [List.mem_append, List.mem_cons]
    intro step given
    rcases given with (inside | inside) | (rfl | inside)
    · exact (calm step inside).2
    · exact (calm' step inside).2
    · exact ⟨trivial, fun _ => nofun⟩
    · exact (calm'' step inside).2
  · exact List.mem_append_left _ (List.mem_append_right _ sent)
  · rw [publishedIds_append, publishedIds_append, publishedIds_event, unpublished, published, unpublished']
    rfl
  · change x.loop.inFlight bid.requestId ≠ none
    rw [flight]
    nofun
  · change x.loop.bidSubscribers bid.requestId ≠ none
    rw [kept, subscribed]
    nofun

/-- A refused request leaves no trace just if its message is refused or its client key can be decoded. -/
theorem leaves_no_trace_iff (X : Externals) (key : C.SigningKey) (req : ChatCompletionRequest)
    (readable : ∃ data bid, X.bidFromSlice data = some bid) :
    LeavesNoTrace X key req ↔ (∃ e, decryptMessagesIfEncrypted X req >>= newUserMessage = .error e) ∨
      ∃ clientPubkey, decodeHexPubkey req.clientPubkeyHex = .ok clientPubkey := by
  change _ ↔ (∃ e, userMessage X req = .error e) ∨ _
  cases read : userMessage X req with
  | error e =>
    refine ⟨fun _ => .inl ⟨e, rfl⟩, fun _ => silent_refusal_leaves_no_trace fun key pool => .inl ?_⟩
    exact unread_sends_nothing read key pool
  | ok message =>
    cases decoded : decodeHexPubkey req.clientPubkeyHex with
    | ok clientPubkey =>
      refine ⟨fun _ => .inr ⟨clientPubkey, rfl⟩, fun _ => silent_refusal_leaves_no_trace fun key pool => .inr ?_⟩
      exact decoded_not_refused read decoded key pool
    | error e =>
      refine ⟨fun traceless => ?_, by rintro (⟨_, unread⟩ | ⟨_, decodes⟩) <;> contradiction⟩
      obtain ⟨text, rfl⟩ := decodeHexPubkey_error decoded
      obtain ⟨data, bid, parsed⟩ := readable
      obtain ⟨n, during, x, w, begun, run, calm, refused, ⟨y, request, tx, sent⟩, _⟩ :=
        reach_refused X key read decoded parsed
      have nothing := (traceless false false _ _ [] _ n 0 during x text w .nil begun run
        (fun step member => (calm step member).2 0) refused).1
      exact absurd rfl (nothing _ sent (.publish request tx) true)

theorem unreadable_request_leaves_no_trace :
    let C := Primitives.marking []
    let X := Externals.serde readSampleBid fun text => .ok ⟨text⟩
    LeavesNoTrace X (C := C) (Vector.replicate 32 0) { sampleChat with messages := [] } := by
  intro C X
  exact (leaves_no_trace_iff X _ _ ⟨_, sampleBid, if_pos rfl⟩).mpr (.inl ⟨_, rfl⟩)

/-- The sample request has an empty client key: it is refused with its request published and its entries
    left in `in_flight` and `bid_subscribers`. -/
theorem bad_key_leaves_entries :
    let C := Primitives.marking []
    let X := Externals.serde readSampleBid fun text => .ok ⟨text⟩
    let start := World.start (EventLoop.new (C := C) (Vector.replicate 32 0) false false) (.inMemory fun _ => none) 60000
    ∃ n during x e w, Step X start (.request 0 sampleChat) n ∧ Runs X n during x ∧
      (∀ step ∈ during, step.2.handleOnly ∧ ∀ k, step.2.starts ≠ some (.chat k)) ∧
      Step X x (.call (.chat 0) (.httpResponse (.error (.badRequest e))) ()) w ∧
      publishedIds during = [sampleBid.requestId] ∧
      (∀ r, start.loop.inFlight r = none) ∧ w.loop.inFlight sampleBid.requestId ≠ none ∧
      (∀ r, start.loop.bidSubscribers r = none) ∧ w.loop.bidSubscribers sampleBid.requestId ≠ none ∧
      ¬ LeavesNoTrace X (C := C) (Vector.replicate 32 0) sampleChat := by
  intro C X start
  have read : userMessage X sampleChat = .ok "hello" := rfl
  have undecoded : decodeHexPubkey sampleChat.clientPubkeyHex =
      .error (.badRequest "client_pubkey_hex must be 32 bytes") := rfl
  have parsed : X.bidFromSlice sampleBidText.toUTF8.toList = some sampleBid := if_pos rfl
  obtain ⟨n, during, x, w, begun, run, calm, refused, ⟨y, request, tx, sent⟩, published, flight,
    subscribed⟩ :=
    reach_refused X (C := C) (Vector.replicate 32 0) read undecoded parsed
  refine ⟨n, during, x, _, w, begun, run, calm, refused, published, fun _ => rfl, flight, fun _ => rfl, subscribed, ?_⟩
  intro traceless
  have nothing := (traceless false false _ _ [] _ n 0 during x _ w .nil begun run
    (fun step member => (calm step member).2 0) refused).1
  exact nothing _ sent (.publish request tx) true rfl

end Coordinator
