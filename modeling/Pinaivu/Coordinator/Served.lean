import Pinaivu.Coordinator.CrossTalk
import Pinaivu.Coordinator.LoopTurns
import Pinaivu.Coordinator.Turns

namespace Coordinator

open Protocol Crypto Async

variable {C : Primitives} {X : Externals} {loop : EventLoop C} {archive : ReceiptArchive} {ttl : UInt64}
  {w m n : World C} {trace : List (World C × Label)} {label : Label}

def drawnUnless {α : Type} (given : Option α) (made : Σ op, Answer op) : List (Σ op, Answer op) :=
  if given.isSome then [] else [made]

/-- What `fetch_warmth_map` asks the database, with or without one, and the map it returns. -/
inductive WarmthRead (session : SessionId) : Bool → List (Σ op, Answer op) → WarmthMap → Prop where
  | off : WarmthRead session false [] fun _ => none
  | failed (e : String) : WarmthRead session true [⟨.selectSessionCache session, .error e⟩] fun _ => none
  | read (rows : List (String × String)) :
      WarmthRead session true [⟨.selectSessionCache session, .ok rows⟩] (warmthMap rows)

/-- What stands behind an answer: all calls made for it, one after the other, and what it is made of. -/
structure Service (X : Externals) (C : Primitives) (key : C.SigningKey) (pool : Bool) (req : ChatCompletionRequest)
    (calls : List (Σ op, Answer op)) (request : InferenceRequest) (tx : OneshotId) (rx : BidChannelId)
    (bids : List InferenceBid) (winner : InferenceBid) (peer : PeerId) (dispatch : InferenceDispatch) (out : OneshotId)
    (reply : InferenceReply) (result : ChatCompletionResult) : Prop where
  session : ∀ given, req.sessionId = some given → result.sessionId = given
  asked : request = ⟨result.requestId, result.sessionId, req.model, parsePrivacy req.privacy,
    if req.sessionId.isSome then .continued else .new⟩
  prompt : decryptMessagesIfEncrypted X req >>= newUserMessage = .ok dispatch.newUserMessage
  memory : dispatch.memwalContext = req.memwalContext
  sessionKey : ∀ given, req.sessionKey = some given → dispatch.sessionKey = given
  addressee : X.parsePeerId winner.nodePeerId.value = .ok peer
  healthy : reply.error = none
  passedOn : result = ⟨result.requestId, result.sessionId, reply.content, dispatch.sessionKey, reply.inputTokens,
    reply.outputTokens, reply.latencyMs⟩
  path : ∃ read warmth told clientPubkey nowMs, WarmthRead result.sessionId pool read warmth ∧
    pickWinnerWithWarmth bids warmth = some winner ∧ decodeHexPubkey req.clientPubkeyHex = .ok clientPubkey ∧
    dispatch.dispatchToken = dispatchToken C key result.requestId result.sessionId clientPubkey winner
      req.maxPriceNanox nowMs ∧
    calls = ⟨.newUuid, result.requestId⟩ :: (drawnUnless req.sessionId ⟨.newUuid, result.sessionId⟩ ++
      (⟨.newOneshot result.requestId, tx⟩ :: ⟨.sendCommand (.publish request tx), true⟩ ::
        ⟨.awaitPublish tx, .ok rx⟩ :: ⟨.collectBids rx, bids⟩ :: (read ++
      (⟨.sendCommand (.setPayoutAddresses result.requestId (payoutAddresses bids)), told⟩ :: ⟨.now, nowMs⟩ ::
        (drawnUnless req.sessionKey ⟨.randomSessionKey, dispatch.sessionKey⟩ ++
      [⟨.newOneshot result.requestId, out⟩, ⟨.sendCommand (.dispatchInference peer dispatch out), true⟩,
        ⟨.awaitInference out, .ok reply⟩])))))

variable {key : C.SigningKey} {pool : Bool} {req : ChatCompletionRequest} {calls : List (Σ op, Answer op)}
  {result : ChatCompletionResult}

theorem sessionOf_path {given : Option SessionId} {session : SessionId × ClientSessionIntent}
    (path : (sessionOf given).Follows calls (.done session)) :
    (∀ id, given = some id → session.1 = id) ∧ session.2 = (if given.isSome then .continued else .new) ∧
      calls = drawnUnless given ⟨.newUuid, session.1⟩ := by
  cases given with
  | some id =>
    cases path
    exact ⟨fun _ same => Option.some.inj same, rfl, rfl⟩
  | none =>
    replace path := Routine.Follows.perform_done path
    obtain ⟨id, _, rfl, path⟩ := path
    cases path
    exact ⟨nofun, rfl, rfl⟩

theorem sessionKeyOr_path {given : Option String} {sessionKey : String}
    (path : (sessionKeyOr given).Follows calls (.done sessionKey)) :
    (∀ key, given = some key → sessionKey = key) ∧ calls = drawnUnless given ⟨.randomSessionKey, sessionKey⟩ := by
  cases given with
  | some key =>
    cases path
    exact ⟨fun _ same => Option.some.inj same, rfl⟩
  | none =>
    replace path := Routine.Follows.call_done path
    obtain ⟨key, _, rfl, path⟩ := path
    cases path
    exact ⟨nofun, rfl⟩

theorem fetchWarmthMap_path {session : SessionId} {warmth : WarmthMap}
    (path : (fetchWarmthMap pool session).Follows calls (.done warmth)) : WarmthRead session pool calls warmth := by
  cases pool with
  | false =>
    cases path
    exact .off
  | true =>
    replace path := Routine.Follows.perform_done path
    obtain ⟨answer, _, rfl, path⟩ := path
    cases answer with
    | error e =>
      cases path
      exact .failed e
    | ok rows =>
      cases path
      exact .read rows

theorem dispatchInference_path {peer : PeerId} {dispatch : InferenceDispatch} {reply : InferenceReply}
    (path : (dispatchInference peer dispatch).Follows calls (.done (.ok reply))) :
    ∃ out, calls = [⟨.newOneshot dispatch.dispatchToken.requestId, out⟩,
      ⟨.sendCommand (.dispatchInference peer dispatch out), true⟩, ⟨.awaitInference out, .ok reply⟩] := by
  replace path := Routine.Follows.perform_done path
  obtain ⟨out, _, rfl, path⟩ := path
  replace path := Routine.Follows.perform_done path
  obtain ⟨sent, _, rfl, path⟩ := path
  cases sent with
  | false => cases path
  | true =>
    replace path := Routine.Follows.call_done path
    obtain ⟨answer, _, rfl, path⟩ := path
    cases path
    exact ⟨out, rfl⟩

theorem dispatchToWinner_path {r : RequestId} {sessionId : SessionId} {message : String} {winner : InferenceBid}
    (path : (dispatchToWinner X C key req r sessionId message winner).Follows calls (.done (.ok result))) :
    ∃ clientPubkey nowMs sessionKey peer out reply, decodeHexPubkey req.clientPubkeyHex = .ok clientPubkey ∧
      (∀ given, req.sessionKey = some given → sessionKey = given) ∧
      X.parsePeerId winner.nodePeerId.value = .ok peer ∧ reply.error = none ∧
      result = ⟨r, sessionId, reply.content, sessionKey, reply.inputTokens, reply.outputTokens, reply.latencyMs⟩ ∧
      calls = ⟨.now, nowMs⟩ :: (drawnUnless req.sessionKey ⟨.randomSessionKey, sessionKey⟩ ++
        [⟨.newOneshot r, out⟩,
          ⟨.sendCommand (.dispatchInference peer ⟨dispatchToken C key r sessionId clientPubkey winner
            req.maxPriceNanox nowMs, sessionKey, message, req.memwalContext⟩ out), true⟩,
          ⟨.awaitInference out, .ok reply⟩]) := by
  unfold dispatchToWinner at path
  cases decoded : decodeHexPubkey req.clientPubkeyHex with
  | error e =>
    rw [decoded] at path
    cases path
  | ok clientPubkey =>
    rw [decoded] at path
    replace path := Routine.Follows.perform_done path
    obtain ⟨nowMs, _, rfl, path⟩ := path
    replace path := Routine.Follows.seq_done path
    obtain ⟨first, rest, sessionKey, rfl, drawn, path⟩ := path
    obtain ⟨kept, rfl⟩ := sessionKeyOr_path drawn
    cases parsed : X.parsePeerId winner.nodePeerId.value with
    | error e =>
      rw [parsed] at path
      cases path
    | ok peer =>
      rw [parsed] at path
      replace path := Routine.Follows.seq_done path
      obtain ⟨inner, last, answer, rfl, dispatched, path⟩ := path
      cases answer with
      | error e => cases path
      | ok reply =>
        obtain ⟨out, rfl⟩ := dispatchInference_path dispatched
        dsimp only at path
        cases failed : reply.error with
        | some err =>
          rw [failed] at path
          cases path
        | none =>
          rw [failed] at path
          cases path
          exact ⟨clientPubkey, nowMs, sessionKey, peer, out, reply, rfl, kept, rfl, failed, rfl, rfl⟩

theorem runAuction_path {request : InferenceRequest} {message : String}
    (path : (runAuction X C key pool req request message).Follows calls (.done (.ok result))) :
    ∃ tx rx bids read warmth winner told rest, WarmthRead request.sessionId pool read warmth ∧
      pickWinnerWithWarmth bids warmth = some winner ∧
      (dispatchToWinner X C key req request.requestId request.sessionId message winner).Follows rest
        (.done (.ok result)) ∧
      calls = ⟨.newOneshot request.requestId, tx⟩ :: ⟨.sendCommand (.publish request tx), true⟩ ::
        ⟨.awaitPublish tx, .ok rx⟩ :: ⟨.collectBids rx, bids⟩ ::
        (read ++ (⟨.sendCommand (.setPayoutAddresses request.requestId (payoutAddresses bids)), told⟩ :: rest)) := by
  replace path := Routine.Follows.perform_done path
  obtain ⟨tx, _, rfl, path⟩ := path
  replace path := Routine.Follows.perform_done path
  obtain ⟨sent, _, rfl, path⟩ := path
  cases sent with
  | false => cases path
  | true =>
    replace path := Routine.Follows.perform_done path
    obtain ⟨joined, _, rfl, path⟩ := path
    cases joined with
    | error e => cases path
    | ok rx =>
      replace path := Routine.Follows.perform_done path
      obtain ⟨bids, _, rfl, path⟩ := path
      replace path := Routine.Follows.seq_done path
      obtain ⟨read, last, warmth, rfl, warmed, path⟩ := path
      cases picked : pickWinnerWithWarmth bids warmth with
      | none =>
        rw [picked] at path
        cases path
      | some winner =>
        rw [picked] at path
        replace path := Routine.Follows.perform_done path
        obtain ⟨told, rest, rfl, path⟩ := path
        exact ⟨tx, rx, bids, read, warmth, winner, told, rest, fetchWarmthMap_path warmed, picked, path, rfl⟩

theorem chatCompletions_path (path : (chatCompletions X C key pool req).Follows calls (.done (.ok result))) :
    ∃ request tx rx bids winner peer dispatch out reply,
      Service X C key pool req calls request tx rx bids winner peer dispatch out reply result := by
  replace path := Routine.Follows.perform_done path
  obtain ⟨r, _, rfl, path⟩ := path
  replace path := Routine.Follows.seq_done path
  obtain ⟨first, rest, session, rfl, opened, path⟩ := path
  obtain ⟨kept, intent, rfl⟩ := sessionOf_path opened
  dsimp only at path
  cases prompt : decryptMessagesIfEncrypted X req >>= newUserMessage with
  | error e =>
    rw [prompt] at path
    cases path
  | ok message =>
    rw [prompt] at path
    replace path := runAuction_path path
    obtain ⟨tx, rx, bids, read, warmth, winner, told, rest, source, picked, path, rfl⟩ := path
    obtain ⟨clientPubkey, nowMs, sessionKey, peer, out, reply, decoded, given, parsed, healthy, rfl, rfl⟩ :=
      dispatchToWinner_path path
    let token := dispatchToken C key r session.1 clientPubkey winner req.maxPriceNanox nowMs
    let request : InferenceRequest := ⟨r, session.1, req.model, parsePrivacy req.privacy, session.2⟩
    refine ⟨request, tx, rx, bids, winner, peer, ⟨token, sessionKey, message, req.memwalContext⟩, out, reply, ?_⟩
    exact {
      session := kept
      asked := by simp only [request, intent]
      prompt := prompt
      memory := rfl
      sessionKey := given
      addressee := parsed
      healthy := healthy
      passedOn := rfl
      path := ⟨read, warmth, told, clientPubkey, nowMs, source, picked, decoded, rfl, rfl⟩ }

theorem dispatchToWinner_silent (key : C.SigningKey) (req : ChatCompletionRequest) (r : RequestId)
    (sessionId : SessionId) (message : String) (winner : InferenceBid) :
    (dispatchToWinner X C key req r sessionId message winner).Sat (fun op => ∀ result, op ≠ .httpResponse result)
      (fun _ _ => True) fun _ => True := by
  unfold dispatchToWinner
  cases decodeHexPubkey req.clientPubkeyHex with
  | error e => exact trivial
  | ok clientPubkey =>
    refine ⟨nofun, fun nowMs _ => (sessionKeyOr_sat nofun req.sessionKey).seq fun sessionKey _ => ?_⟩
    cases X.parsePeerId winner.nodePeerId.value with
    | error e => exact trivial
    | ok peer =>
      refine (dispatchInference_sat peer nofun (fun _ => nofun) fun _ => nofun).seq fun reply _ => ?_
      cases reply with
      | error e => exact trivial
      | ok reply =>
        dsimp only
        cases reply.error <;> exact trivial

theorem chatCompletions_silent (key : C.SigningKey) (pool : Bool) (req : ChatCompletionRequest) :
    (chatCompletions X C key pool req).Sat (fun op => ∀ result, op ≠ .httpResponse result) (fun _ _ => True)
      fun _ => True := by
  refine ⟨nofun, fun r _ => (sessionOf_sat nofun req.sessionId).seq fun session _ => ?_⟩
  dsimp only
  cases decryptMessagesIfEncrypted X req >>= newUserMessage with
  | error e => exact trivial
  | ok message =>
    refine ⟨nofun, fun tx _ => ⟨nofun, fun sent _ => ?_⟩⟩
    cases sent with
    | false => exact trivial
    | true =>
      refine ⟨nofun, fun joined _ => ?_⟩
      cases joined with
      | error e => exact trivial
      | ok rx =>
        refine ⟨nofun, fun bids _ => (fetchWarmthMap_sat nofun pool).seq fun warmth _ => ?_⟩
        cases pickWinnerWithWarmth bids warmth with
        | none => exact trivial
        | some winner => exact ⟨nofun, fun _ _ => dispatchToWinner_silent key req r session.1 message winner⟩

theorem serveChat_path {answer : Except AppError ChatCompletionResult} {next : Unit → Task Unit}
    (path : (serveChat X C key pool req).Follows calls (.call (.httpResponse answer) next)) :
    (chatCompletions X C key pool req).Follows calls (.done answer) := by
  rcases Routine.Follows.seq_inv path with ⟨op, rest, inside, shape⟩ | ⟨first, rest, result, rfl, through, onward⟩
  · cases shape
    exact absurd rfl (inside.allowed (chatCompletions_silent key pool req) answer)
  · cases onward with
    | nil => simpa using through
    | cons onward => cases onward

/-- An auction held within a run: its publish command is carried out, and what is then collected are bids for
    its request that were offered to its channel since, in this order. -/
def Auctioned (X : Externals) (k : Nat) (trace : List (World C × Label)) (request : InferenceRequest) (tx : OneshotId)
    (rx : BidChannelId) (bids : List InferenceBid) : Prop :=
  ∃ opening m swarm bidding n closing,
    trace = opening ++ (m, Label.command (.publish request tx) swarm) ::
      (bidding ++ (n, Label.call (.chat k) (.collectBids rx) bids) :: closing) ∧
    swarm.published = .ok () ∧ rx = ⟨request.requestId, swarm.bidChannel⟩ ∧
    (∀ bid ∈ bids, bid.requestId = request.requestId) ∧
    bids.Sublist (((offers X bidding).filter fun entry => entry.1 = rx).map (·.2))

theorem offer_subscribed {rx : BidChannelId} {bid : InferenceBid} (offered : offer X (m, label) = some (rx, bid)) :
    m.loop.bidSubscribers bid.requestId = some rx := by
  cases label with
  | event event =>
    cases event with
    | gossip source message nowMs =>
      unfold offer at offered
      dsimp only at offered
      split at offered
      · obtain ⟨parsed, _, given⟩ := Option.bind_eq_some_iff.mp offered
        obtain ⟨tx, subscribed, same⟩ := Option.bind_eq_some_iff.mp given
        cases same
        exact subscribed
      · cases offered
    | _ => cases offered
  | _ => cases offered

variable {pgPool settlementTx : Bool}

theorem unoffered (run : Runs X (World.start (EventLoop.new key pgPool settlementTx) archive ttl) trace m)
    {command : MeshCommand} {swarm : SwarmAnswers} (step : Step X m (.command command swarm) n) {rx : BidChannelId}
    (minted : rx.serial = swarm.bidChannel) : ∀ entry ∈ offers X trace, entry.1 ≠ rx := by
  intro entry member same
  obtain ⟨⟨x, taken⟩, inside, offered⟩ := List.mem_filterMap.mp member
  obtain ⟨before, after, shape⟩ := List.append_of_mem inside
  have subscribed : x.loop.bidSubscribers entry.2.requestId = some entry.1 := offer_subscribed offered
  rw [same] at subscribed
  have used := subscriber_used (fun _ => rfl) (run.split shape).1 subscribed
  have below : rx.serial < m.serial := by
    apply (serialsUsed run).below
    rw [shape, List.filterMap_append]
    exact List.mem_append_left _ used
  rw [minted, (command_serial step).1] at below
  exact Nat.lt_irrefl _ below

theorem collected_offered (run : Runs X (World.start loop archive ttl) trace m) {k : Nat} {rx : BidChannelId}
    {bids : List InferenceBid} (step : Step X m (.call (.chat k) (.collectBids rx) bids) n) :
    bids.Sublist (((offers X trace).filter fun entry => entry.1 = rx).map (·.2)) := by
  have taken : bids = (m.bids rx).collected := by
    cases step with
    | call waiting answered => exact collectBids_collected answered
  have delivered : bids <+: deliveredTo rx trace := by
    rw [taken, ← channel_delivered run rx]
    exact List.prefix_append _ _
  exact delivered.sublist.trans (((deliveries_offered run).filter _).map _)

theorem collected_since {before bidding : List (World C × Label)} {z : World C} {command : MeshCommand}
    {swarm : SwarmAnswers} (run : Runs X (World.start (EventLoop.new key pgPool settlementTx) archive ttl)
      (before ++ (m, .command command swarm) :: bidding) z) {k : Nat} {rx : BidChannelId} {bids : List InferenceBid}
    (minted : rx.serial = swarm.bidChannel) (step : Step X z (.call (.chat k) (.collectBids rx) bids) n) :
    bids.Sublist (((offers X bidding).filter fun entry => entry.1 = rx).map (·.2)) := by
  obtain ⟨reach, _, opening, _⟩ := run.split rfl
  have other := unoffered reach opening minted
  have none : (offers X before).filter (fun entry => entry.1 = rx) = [] := by
    rw [List.filter_eq_nil_iff]
    intro entry member
    simpa using other entry member
  have offered := collected_offered run step
  rw [offers, List.filterMap_append, List.filterMap_cons_none rfl, List.filter_append, ← offers, none,
    List.nil_append] at offered
  exact offered

theorem joined_minted (run : Runs X (World.start loop archive ttl) trace w) {k : Nat} {tx : OneshotId}
    {rx : BidChannelId} (joined : (m, .call (.chat k) (.awaitPublish tx) (.ok rx)) ∈ trace) : Minted trace rx tx := by
  obtain ⟨prior, rest, cut⟩ := List.append_of_mem joined
  obtain ⟨reach, _, step, _⟩ := run.split cut
  have replied : m.publishReplies tx = some (.ok rx) := by
    cases step with
    | call waiting answered => exact awaitPublish_reply answered
  exact ((repliesMinted reach).replies tx rx replied).mono ⟨_, cut.symm⟩

theorem unhandled_before_drawn {early late : List (World C × Label)} {x y : World C}
    (run : Runs X (World.start loop archive ttl) (early ++ late) w)
    (handle : ∀ step ∈ early ++ late, step.2.handleOnly) {k : Nat} {r : RequestId} {tx : OneshotId}
    (drawn : (y, .call (.chat k) (.newOneshot r) tx) ∈ late) {request : InferenceRequest} {swarm : SwarmAnswers} :
    (x, .command (.publish request tx) swarm) ∉ early := by
  intro before
  obtain ⟨prior, rest, rfl⟩ := List.append_of_mem drawn
  rw [← List.append_assoc] at run handle
  obtain ⟨reach, _, step, _⟩ := run.split rfl
  have calm : ∀ step ∈ early ++ prior, step.2.handleOnly := fun step member => handle step (List.mem_append_left _ member)
  have older := (publishesOwn reach calm (sent_of_handled reach (List.mem_append_left _ before))).1
  rw [(oneshot_serial step).1] at older
  exact Nat.lt_irrefl _ older

/-- A call that has published its request and collected bids has held its auction since it drew its ticket. -/
theorem auctioned {early late : List (World C × Label)} {k : Nat} {request : InferenceRequest} {tx : OneshotId}
    {rx : BidChannelId} {bids : List InferenceBid} {r : RequestId} {y y' y'' z : World C}
    (run : Runs X (World.start (EventLoop.new key pgPool settlementTx) archive ttl) (early ++ late) w)
    (handle : ∀ step ∈ early ++ late, step.2.handleOnly) (drawn : (y, .call (.chat k) (.newOneshot r) tx) ∈ late)
    (asked : (y', .call (.chat k) (.sendCommand (.publish request tx)) true) ∈ late)
    (joined : (y'', .call (.chat k) (.awaitPublish tx) (.ok rx)) ∈ late)
    (collected : (z, .call (.chat k) (.collectBids rx) bids) ∈ late) : Auctioned X k late request tx rx bids := by
  obtain ⟨upto, closing, rfl⟩ := List.append_of_mem collected
  have whole : early ++ (upto ++ (z, .call (.chat k) (.collectBids rx) bids) :: closing) =
      (early ++ upto) ++ (z, .call (.chat k) (.collectBids rx) bids) :: closing := (List.append_assoc _ _ _).symm
  obtain ⟨first, n, step, _⟩ := run.split whole
  have inside : early ++ upto <+: early ++ (upto ++ (z, .call (.chat k) (.collectBids rx) bids) :: closing) :=
    whole ▸ List.prefix_append _ _
  have calm : ∀ step ∈ early ++ upto, step.2.handleOnly := fun step member => handle step (inside.subset member)
  -- the channel comes from the call's own publish command
  obtain ⟨tx', _, minted, _⟩ := collecting_phase first calm step
  obtain rfl := (minted.mono inside).unique run (joined_minted run (List.mem_append_right early joined))
  obtain ⟨m, request', swarm, handled, published, rfl⟩ := minted
  obtain rfl : request' = request := publish_unique run handle
    (List.mem_filterMap.mpr ⟨_, List.mem_append_right _ asked, rfl⟩) (sent_of_handled run (inside.subset handled))
  have since := (List.mem_append.mp handled).resolve_left (unhandled_before_drawn run handle drawn)
  obtain ⟨opening, bidding, rfl⟩ := List.append_of_mem since
  refine ⟨opening, m, swarm, bidding, z, closing, by simp, published, rfl, fun bid member => ?_, ?_⟩
  · have taken : bids = (z.bids ⟨request'.requestId, swarm.bidChannel⟩).collected := by
      cases step with
      | call waiting answered => exact collectBids_collected answered
    rw [taken] at member
    exact ((bidsTraced first calm).collected _ bid member).1
  · rw [← List.append_assoc] at first
    exact collected_since first rfl step

/-- A completed call has been served by the winner of its own auction. Since its request came in for the last
    time, its calls are those of one auction and one dispatch and no others. The bids it chose from were offered
    between its publish command and their collection, the warmth is that of the session cache as it was read, the
    token carries the enclave's signature, and the result is the winner's reply to that very dispatch. -/
theorem completed_call_served_by_winner (X : Externals) (correct : C.Correct) (key : C.SigningKey)
    (pgPool settlementTx : Bool) (archive : ReceiptArchive) (ttl : UInt64) (w m : World C)
    (before after : List (World C × Label)) (k : Nat) (result : ChatCompletionResult)
    (run : Runs X (World.start (EventLoop.new key pgPool settlementTx) archive ttl)
      (before ++ (m, .call (.chat k) (.httpResponse (.ok result)) ()) :: after) w)
    (handle : ∀ step ∈ before, step.2.handleOnly) :
    ∃ early x req late request tx rx bids winner peer dispatch out reply,
      before = early ++ (x, .request k req) :: late ∧ (∀ step ∈ late, step.2.starts ≠ some (.chat k)) ∧
      Service X C key pgPool req (callsBy (.chat k) late) request tx rx bids winner peer dispatch out reply result ∧
      Auctioned X k late request tx rx bids ∧
      (∀ y rows, (y, .call (.chat k) (.selectSessionCache result.sessionId) (.ok rows)) ∈ late →
        rows = y.sessionRows result.sessionId) ∧
      dispatch.dispatchToken.verify C = .ok () ∧ Answered before peer dispatch out (.ok reply) := by
  obtain ⟨first, n, step, _⟩ := run.split rfl
  have waiting : ∃ next, m.tasks (.chat k) = .call (.httpResponse (.ok result)) next := by
    cases step with
    | call waiting answered => exact ⟨_, waiting⟩
  obtain ⟨next, waiting⟩ := waiting
  have served := serving_path first k
  rw [waiting] at served
  obtain ⟨early, x, req, late, rfl, alone, path⟩ := served.resolve_left nofun
  obtain ⟨enclave, pool, _⟩ := run_options (first.split rfl).1
  rw [enclave, pool] at path
  obtain ⟨request, tx, rx, bids, winner, peer, dispatch, out, reply, service⟩ :=
    chatCompletions_path (serveChat_path path)
  obtain ⟨read, warmth, told, clientPubkey, nowMs, _, _, _, token, calls⟩ := service.path
  have whole : early ++ (x, .request k req) :: late = (early ++ [(x, .request k req)]) ++ late := by simp
  have made (op : Call) (answer : Answer op) (member : ⟨op, answer⟩ ∈ callsBy (.chat k) late) :
      ∃ y, (y, Label.call (.chat k) op answer) ∈ late := mem_callsBy member
  rw [calls] at made
  obtain ⟨_, opened⟩ := made (.newOneshot result.requestId) tx (by simp)
  obtain ⟨_, asked⟩ := made (.sendCommand (.publish request tx)) true (by simp)
  obtain ⟨_, joined⟩ := made (.awaitPublish tx) (.ok rx) (by simp)
  obtain ⟨_, collected⟩ := made (.collectBids rx) bids (by simp)
  obtain ⟨_, sent⟩ := made (.sendCommand (.dispatchInference peer dispatch out)) true (by simp)
  obtain ⟨y, answering⟩ := made (.awaitInference out) (.ok reply) (by simp)
  have inside {step : World C × Label} (member : step ∈ late) : step ∈ early ++ (x, .request k req) :: late :=
    List.mem_append_right _ (List.mem_cons_of_mem _ member)
  refine ⟨early, x, req, late, request, tx, rx, bids, winner, peer, dispatch, out, reply, rfl, alone, service, ?_⟩
  refine ⟨?_, ?_, ?_, ?_⟩
  · rw [whole] at first handle
    exact auctioned first handle opened asked joined collected
  · intro y rows member
    obtain ⟨_, taken⟩ := first.step_of_mem (inside member)
    cases taken with
    | call waiting answered =>
      simp only [World.perform] at answered
      split at answered
      · rename_i same
        exact same
      · cases answered
  · rw [token]
    exact verifyMessage_signed correct key _
  · obtain ⟨prior, rest, cut⟩ := List.append_of_mem (inside answering)
    obtain ⟨reading, _, taken, _⟩ := first.split cut
    have prior_before : prior <+: early ++ (x, .request k req) :: late := ⟨_, cut.symm⟩
    obtain ⟨_, peer', dispatch', sent', _, outcome⟩ :=
      awaited_answered (fun _ => rfl) reading (fun taken member => handle taken (prior_before.subset member)) taken
    obtain ⟨rfl, rfl⟩ := dispatch_unique first handle (List.mem_filterMap.mpr ⟨_, inside sent, rfl⟩)
      (List.mem_filterMap.mpr ⟨_, prior_before.subset sent', rfl⟩)
    rcases outcome with answered | ⟨_, lost⟩
    · exact answered.mono prior_before
    · cases lost

theorem sample_call_served :
    let C := Primitives.marking []
    let X := Externals.serde readSampleBid fun text => .ok ⟨text⟩
    ∃ before m w, Runs X (World.start (EventLoop.new (C := C) (Vector.replicate 32 0) false false)
        (.inMemory fun _ => none) 60000)
        (before ++ [(m, .call (.chat 0) (.httpResponse (.ok (sampleResult sampleBid.requestId))) ())]) w ∧
      ∃ peer dispatch out reply, Answered before peer dispatch out (.ok reply) ∧ reply.content = "hi" := by
  intro C X
  let key : C.SigningKey := Vector.replicate 32 0
  obtain ⟨before, m, x, answered, reached⟩ :=
    reach_dispatched X key sampleBid (bidMessage "12D3KooWPeerNode1") rfl (if_pos rfl) rfl
  obtain ⟨replying, n, y, second, quiet, _, replied, _⟩ := reach_answer X x sampleReply reached.idle
    reached.pending reached.awaiting
  have answering : Step X y (.call (.chat 0) (.httpResponse (.ok (sampleResult sampleBid.requestId))) ())
      (y.setTask (.chat 0) (.done ())) := .call (replied.trans reached.responding) rfl
  have run := (reached.run.append second).snoc answering
  have served := completed_call_served_by_winner X (Primitives.marking_correct []) key false false _ 60000 _ y _ [] 0 _
    run <| by
      simp only [List.mem_append, List.mem_cons, List.not_mem_nil, or_false]
      intro step given
      rcases given with (inside | rfl) | inside | rfl
      · exact (reached.clean step (List.mem_append_left _ inside)).1
      · exact trivial
      · exact (quiet step inside).1
      · exact trivial
  obtain ⟨_, _, _, _, _, _, _, _, _, peer, dispatch, out, reply, _, _, service, _, _, _, outcome⟩ := served
  have content := congrArg ChatCompletionResult.content service.passedOn
  exact ⟨_, y, _, run, peer, dispatch, out, reply, outcome, content.symm⟩

end Coordinator
