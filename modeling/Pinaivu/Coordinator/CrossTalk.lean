import Pinaivu.Coordinator.PayoutOrder

namespace Coordinator

open Protocol Crypto Async

variable {C : Primitives} {X : Externals} {loop : EventLoop C} {archive : ReceiptArchive} {ttl : UInt64}
  {w m n : World C} {trace : List (World C × Label)} {label : Label}

def Label.delivers : Label → Option (BidChannelId × InferenceBid)
  | .call _ (.sendBid tx bid) true => some (tx, bid)
  | _ => none

def deliveries (trace : List (World C × Label)) : List (BidChannelId × InferenceBid) :=
  trace.filterMap fun step => step.2.delivers

def deliveredTo (rx : BidChannelId) (trace : List (World C × Label)) : List InferenceBid :=
  ((deliveries trace).filter fun entry => entry.1 = rx).map (·.2)

/-- What the message of a step has for an auction: its bid, and the channel the bid's request is
    subscribed with. -/
def offer (X : Externals) (step : World C × Label) : Option (BidChannelId × InferenceBid) :=
  match step.2 with
  | .event (.gossip _ message _) =>
    if message.topic = Topics.bids then do
      let bid ← X.bidFromSlice message.data
      let tx ← step.1.loop.bidSubscribers bid.requestId
      return (tx, bid)
    else none
  | _ => none

def offers (X : Externals) (trace : List (World C × Label)) : List (BidChannelId × InferenceBid) :=
  trace.filterMap (offer X)

def Label.deliversTo (rx : BidChannelId) (label : Label) : List InferenceBid :=
  (label.delivers.toList.filter fun entry => entry.1 = rx).map (·.2)

theorem deliveredTo_snoc (rx : BidChannelId) (step : World C × Label) :
    deliveredTo rx (trace ++ [step]) = deliveredTo rx trace ++ step.2.deliversTo rx := by
  rw [deliveredTo, deliveries, filterMap_snoc, List.filter_append, List.map_append]
  rfl

theorem perform_bids {id : TaskId} {op : Call} {answer : Answer op} (answered : m.perform X op answer = some n)
    (rx : BidChannelId) : (n.bids rx).collected ++ (n.bids rx).queue =
      (m.bids rx).collected ++ (m.bids rx).queue ++ (Label.call id op answer).deliversTo rx := by
  cases performed answered with
  | silent quiet =>
    cases op with
    | sendBid tx bid =>
      cases answer with
      | false => exact (List.append_nil _).symm
      | true => cases quiet
    | _ => exact (List.append_nil _).symm
  | bid tx bid received =>
    by_cases same : rx = tx
    · subst rx
      simp [Label.deliversTo, Label.delivers]
    · have other : ¬ tx = rx := fun eq => same eq.symm
      simp [Label.deliversTo, Label.delivers, same, other]
  | collected closed =>
    rw [closeBids_queue, closeBids_collected]
    exact (List.append_nil _).symm
  | dropped tx closed away =>
    rw [closeBids_queue, closeBids_collected]
    exact (List.append_nil _).symm
  | _ => exact (List.append_nil _).symm

theorem step_bids (step : Step X m label n) (rx : BidChannelId) :
    (n.bids rx).collected ++ (n.bids rx).queue =
      (m.bids rx).collected ++ (m.bids rx).queue ++ label.deliversTo rx := by
  cases step with
  | cancel k =>
    rw [((dropChat_bids m k).2 rx).1, ((dropChat_bids m k).2 rx).2]
    exact (List.append_nil _).symm
  | call waiting answered => exact perform_bids answered rx
  | @receive k other next bid rest collecting queued =>
    by_cases same : rx = other
    · subst rx
      simp [World.receiveBid, Label.deliversTo, Label.delivers, queued]
    · simp [World.receiveBid, Label.deliversTo, Label.delivers, same]
  | _ => exact (List.append_nil _).symm

theorem channel_delivered (run : Runs X (World.start loop archive ttl) trace w) (rx : BidChannelId) :
    (w.bids rx).collected ++ (w.bids rx).queue = deliveredTo rx trace := by
  refine run.history (I := fun trace w => (w.bids rx).collected ++ (w.bids rx).queue = deliveredTo rx trace) rfl ?_
  intro before m label n _ _ step kept
  rw [step_bids step rx, kept, deliveredTo_snoc]

def offerTracking (C : Primitives) (X : Externals) : Tracking C (Option (BidChannelId × InferenceBid)) where
  typestate := {
    allowed := fun state op => ∀ tx bid, op = .sendBid tx bid → state = some (tx, bid)
    advance := fun state op _ =>
      match op with
      | .sendBid _ _ => none
      | _ => state }
  ends _ := True
  fresh m label := offer X (m, label)

theorem begins_offer {task : Task Unit} (begun : Begins X m label .eventLoop task) :
    (offerTracking C X).Obeyed task (offer X (m, label)) := by
  have still {t : Task Unit} {state : Option (BidChannelId × InferenceBid)}
      (sat : t.Sat (fun op => ∀ tx bid, op ≠ .sendBid tx bid) (fun _ _ => True) fun _ => True) :
      (offerTracking C X).Obeyed t state := by
    refine sat.obeys (fun op other => ⟨fun tx bid same => absurd same (other tx bid), fun _ => ?_⟩) fun _ _ => trivial
    cases op with
    | sendBid tx bid => exact absurd rfl (other tx bid)
    | _ => rfl
  have plain (op : Call) (known : op.plain) (tx : BidChannelId) (bid : InferenceBid) : op ≠ .sendBid tx bid := by
    intro equal
    subst equal
    cases known
  cases begun with
  | command command swarm => exact still (handleCommand_sat plain m.loop command swarm fun _ _ _ _ _ => nofun)
  | event event =>
    by_cases gossip : ∃ source message nowMs, event = .gossip source message nowMs
    · obtain ⟨source, message, nowMs, rfl⟩ := gossip
      change (offerTracking C X).Obeyed (m.loop.handleGossipMessage X message nowMs) _
      unfold EventLoop.handleGossipMessage
      split
      · rename_i topic
        split
        · rename_i bid parsed
          split
          · rename_i tx subscribed
            have offered : offer X (m, Label.event (.gossip source message nowMs)) = some (tx, bid) := by
              simp [offer, topic, parsed, subscribed]
            rw [offered]
            refine ⟨fun other another same => ?_, fun _ => trivial⟩
            cases same
            rfl
          · exact trivial
        · exact trivial
      · split
        · split
          · split
            · exact ⟨fun _ _ => nofun, fun _ => trivial⟩
            · exact trivial
          · exact trivial
        · exact trivial
    · apply still
      apply handleEvent_sat plain m.loop event
      · intro source message nowMs _ _ shape
        exact absurd ⟨source, message, nowMs, shape⟩ gossip
      · exact fun _ _ _ _ _ _ _ _ => ⟨fun _ _ => nofun, fun _ => ⟨fun _ _ _ _ _ => nofun, fun _ _ _ => nofun⟩⟩

theorem offer_obeyed (run : Runs X (World.start loop archive ttl) trace w) :
    (offerTracking C X).Obeyed (w.tasks .eventLoop) ((offerTracking C X).state .eventLoop none trace) :=
  (offerTracking C X).obeyed run trivial fun _ _ _ begun => begins_offer begun

theorem offer_step (run : Runs X (World.start loop archive ttl) trace m) (step : Step X m label n)
    (state : Option (BidChannelId × InferenceBid)) (at_state : (offerTracking C X).state .eventLoop none trace = state) :
    (label.delivers = none ∧ (offerTracking C X).next .eventLoop state (m, label) = offer X (m, label)) ∨
      (label.delivers.toList ++ ((offerTracking C X).next .eventLoop state (m, label)).toList).Sublist state.toList := by
  rcases step_starts step .eventLoop with ⟨calls, ⟨starts, _⟩ | ⟨starts, _⟩⟩ | ⟨op, next, answer, _, rfl, _⟩
  · rw [Tracking.next_other _ _ _ starts calls]
    have silent : label.delivers = none := by
      cases label with
      | call id op answer =>
        have own := call_owned (run.snoc step) (List.mem_append_right _ (List.mem_singleton.mpr rfl))
        cases op with
        | sendBid tx bid =>
          cases id with
          | eventLoop => exact absurd rfl (calls _ answer)
          | _ => cases own
        | _ => rfl
      | _ => rfl
    rw [silent]
    exact .inr (List.Sublist.refl _)
  · rw [Tracking.next_starts _ _ _ starts]
    refine .inl ⟨?_, rfl⟩
    cases label with
    | call id op answer => cases starts
    | _ => rfl
  · rw [Tracking.next_call]
    have allowed := (offerTracking C X).allowed (offer_obeyed run) step
    rw [at_state] at allowed
    cases op with
    | sendBid tx bid =>
      rw [allowed tx bid rfl]
      cases answer with
      | true => exact .inr (List.Sublist.refl _)
      | false => exact .inr (List.nil_sublist _)
    | _ => exact .inr (List.Sublist.refl _)

/-- Every delivered bid came with a message of its own, in the order the messages were processed. -/
theorem deliveries_offered (run : Runs X (World.start loop archive ttl) trace w) :
    (deliveries trace).Sublist (offers X trace) := by
  have kept : (deliveries trace ++ ((offerTracking C X).state .eventLoop none trace).toList).Sublist
      (offers X trace) := by
    refine run.history (I := fun trace _ => (deliveries trace ++
      ((offerTracking C X).state .eventLoop none trace).toList).Sublist (offers X trace)) (List.Sublist.refl _) ?_
    intro before m label n run _ step kept
    rw [Tracking.state_snoc, deliveries, filterMap_snoc, offers, filterMap_snoc, List.append_assoc]
    rcases offer_step run step _ rfl with ⟨silent, fresh⟩ | inside
    · rw [silent, fresh]
      exact ((List.sublist_append_left _ _).trans kept).append (List.Sublist.refl _)
    · exact (((List.Sublist.refl _).append inside).trans kept).trans (List.sublist_append_left _ _)
  exact (List.sublist_append_left _ _).trans kept

def Label.settles : Label → Option (Nat × Except String InferenceReply)
  | .event inbound => inbound.outcome
  | _ => none

def Label.pendingAfter (pending : Nat → Option OneshotId) : Label → Nat → Option OneshotId
  | .command (.dispatchInference _ _ out) swarm => Function.update pending swarm.outId (some out)
  | .event inbound =>
    match inbound.outcome with
    | some (outId, _) => Function.update pending outId none
    | none => pending
  | _ => pending

theorem replyInference_pending (self : EventLoop C) (outId : Nat) (result : Except String InferenceReply) :
    (self.replyInference outId result).1.pendingInference = Function.update self.pendingInference outId none := by
  unfold EventLoop.replyInference
  split
  · rfl
  · rename_i absent
    exact (Function.update_eq_self_iff.mpr absent.symm).symm

theorem step_pending (step : Step X m label n) :
    n.loop.pendingInference = label.pendingAfter m.loop.pendingInference := by
  cases step with
  | cancel k => rw [(dropChat_keeps m k).1]; rfl
  | @call w'' id op next answer waiting answered =>
    change w''.loop.pendingInference = _
    rw [(perform_effect answered).loop]
    rfl
  | @command command rest swarm idle queued fresh outFresh =>
    cases command with
    | publish request reply =>
      simp only [World.setTask, EventLoop.handleCommand, EventLoop.publishRequest]
      split <;> rfl
    | setPayoutAddresses requestId addresses =>
      simp only [World.setTask, EventLoop.handleCommand]
      split <;> rfl
    | _ => rfl
  | @event event idle =>
    cases event with
    | completion sender ack channel nowMs =>
      simp only [World.setTask, EventLoop.handleEvent, handleCompletionAck_loop]
      rfl
    | inferenceResponse outId response => exact replyInference_pending m.loop outId _
    | inferenceFailure outId error => exact replyInference_pending m.loop outId _
    | _ => rfl
  | _ => rfl

/-- A dispatch that answers on `out` was handled as the libp2p request `outId`, and no event has
    settled that request since. -/
def Unanswered (trace : List (World C × Label)) (outId : Nat) (out : OneshotId) : Prop :=
  ∃ before m peer dispatch swarm after,
    trace = before ++ (m, Label.command (.dispatchInference peer dispatch out) swarm) :: after ∧
    swarm.outId = outId ∧ ∀ step ∈ after, ∀ result, step.2.settles ≠ some (outId, result)

def Label.dispatches : Label → Option Nat
  | .command (.dispatchInference _ _ _) swarm => some swarm.outId
  | _ => none

theorem unanswered_iff_since {outId : Nat} {out : OneshotId} : Unanswered trace outId out ↔
    Since (fun step => ∃ peer dispatch swarm, step.2 = .command (.dispatchInference peer dispatch out) swarm ∧
      swarm.outId = outId) (fun step => ∃ result, step.2.settles = some (outId, result)) trace := by
  constructor
  · intro given
    obtain ⟨before, m, peer, dispatch, swarm, after, shape, own, unsettled⟩ := given
    refine ⟨before, _, after, shape, ⟨peer, dispatch, swarm, rfl, own⟩, fun step member settled => ?_⟩
    obtain ⟨result, settles⟩ := settled
    exact unsettled step member result settles
  · intro given
    obtain ⟨before, ⟨m, label⟩, after, shape, ⟨peer, dispatch, swarm, rfl, own⟩, unsettled⟩ := given
    refine ⟨before, m, peer, dispatch, swarm, after, shape, own, fun step member result settles => ?_⟩
    exact unsettled step member ⟨result, settles⟩

theorem unanswered_snoc {outId : Nat} {out : OneshotId} : Unanswered (trace ++ [(m, label)]) outId out ↔
    (∃ peer dispatch swarm, label = .command (.dispatchInference peer dispatch out) swarm ∧ swarm.outId = outId) ∨
      Unanswered trace outId out ∧ ¬ ∃ result, label.settles = some (outId, result) := by
  rw [unanswered_iff_since, unanswered_iff_since, since_snoc]

theorem dispatched_serial (run : Runs X (World.start loop archive ttl) trace w) {command : MeshCommand}
    {swarm : SwarmAnswers} (member : (m, Label.command command swarm) ∈ trace) : swarm.outId < w.serial := by
  obtain ⟨n, step⟩ := run.step_of_mem member
  obtain ⟨channel, outId, _⟩ := command_serial step
  rw [outId, ← channel]
  exact (serialsUsed run).below _ (List.mem_filterMap.mpr ⟨_, member, rfl⟩)

theorem pendingAfter_settled {pending : Nat → Option OneshotId} {outId : Nat}
    {result : Except String InferenceReply} (settles : label.settles = some (outId, result)) :
    label.pendingAfter pending outId = none := by
  cases label with
  | event event =>
    change event.outcome = _ at settles
    simp [Label.pendingAfter, settles]
  | _ => cases settles

theorem pendingAfter_other {pending : Nat → Option OneshotId} {outId : Nat}
    (other : label.dispatches ≠ some outId) (open_still : ∀ result, label.settles ≠ some (outId, result)) :
    label.pendingAfter pending outId = pending outId := by
  cases label with
  | command command swarm =>
    cases command with
    | dispatchInference peer dispatch reply =>
      have apart : outId ≠ swarm.outId := fun same => other (by rw [same]; rfl)
      exact Function.update_of_ne apart _ _
    | _ => rfl
  | event event =>
    cases outcome : event.outcome with
    | none => simp [Label.pendingAfter, outcome]
    | some settled =>
      have apart : outId ≠ settled.1 := by
        intro equal
        subst equal
        exact open_still settled.2 outcome
      simp [Label.pendingAfter, outcome, apart]
  | _ => rfl

theorem fresh_dispatch (run : Runs X (World.start loop archive ttl) trace m) {peer : PeerId}
    {dispatch : InferenceDispatch} {reply out : OneshotId} {swarm : SwarmAnswers}
    (step : Step X m (.command (.dispatchInference peer dispatch reply) swarm) n) :
    ¬ Unanswered trace swarm.outId out := by
  intro given
  obtain ⟨early, x, other, another, swarm', after, shape, own, _⟩ := given
  have member : (x, Label.command (.dispatchInference other another out) swarm') ∈ trace := by
    rw [shape]
    exact List.mem_append_right _ List.mem_cons_self
  have older := dispatched_serial run member
  have new := (command_serial step).2.1
  omega

/-- The keys of `pending_inference` are the dispatches handled and not yet answered. -/
theorem pending_iff_unanswered (clear : ∀ outId, loop.pendingInference outId = none)
    (run : Runs X (World.start loop archive ttl) trace w) (outId : Nat) (out : OneshotId) :
    w.loop.pendingInference outId = some out ↔ Unanswered trace outId out := by
  refine run.history (I := fun trace w => w.loop.pendingInference outId = some out ↔ Unanswered trace outId out)
    ?_ ?_
  · rw [show (World.start loop archive ttl).loop = loop from rfl, clear, unanswered_iff_since]
    exact ⟨nofun, fun since => absurd since not_since_nil⟩
  · intro before m label n run _ step kept
    rw [step_pending step, unanswered_snoc, ← kept]
    by_cases dispatches : label.dispatches = some outId
    · cases label with
      | command command swarm =>
        cases command with
        | dispatchInference peer dispatch reply =>
          cases dispatches
          have fresh : ¬ Unanswered before swarm.outId out := fresh_dispatch run step
          rw [← kept] at fresh
          simp [Label.pendingAfter, fresh]
        | _ => cases dispatches
      | _ => cases dispatches
    · have other : ¬ ∃ peer dispatch swarm, label = .command (.dispatchInference peer dispatch out) swarm ∧
          swarm.outId = outId := by
        intro given
        obtain ⟨peer, dispatch, swarm, rfl, own⟩ := given
        exact dispatches (congrArg some own)
      by_cases settles : ∃ result, label.settles = some (outId, result)
      · obtain ⟨result, closes⟩ := id settles
        rw [pendingAfter_settled closes]
        exact ⟨nofun, fun opened => (opened.elim other fun still => still.2 settles).elim⟩
      · rw [pendingAfter_other dispatches fun result same => settles ⟨result, same⟩]
        exact ⟨fun pending => .inr ⟨pending, settles⟩, fun opened => (opened.resolve_left other).1⟩

/-- The dispatch was handled, and `result` is what the first event to settle its libp2p request since
    has to say. -/
def Answered (trace : List (World C × Label)) (peer : PeerId) (dispatch : InferenceDispatch) (out : OneshotId)
    (result : Except String InferenceReply) : Prop :=
  ∃ before m swarm middle x event after,
    trace = before ++ (m, Label.command (.dispatchInference peer dispatch out) swarm) ::
      (middle ++ (x, .event event) :: after) ∧
    event.outcome = some (swarm.outId, result) ∧
    ∀ step ∈ middle, ∀ other, step.2.settles ≠ some (swarm.outId, other)

theorem Answered.mono {before : List (World C × Label)} {peer : PeerId} {dispatch : InferenceDispatch}
    {out : OneshotId} {result : Except String InferenceReply} (answered : Answered before peer dispatch out result)
    (shape : before <+: trace) : Answered trace peer dispatch out result := by
  obtain ⟨early, m, swarm, middle, x, event, after, rfl, outcome, first⟩ := answered
  obtain ⟨rest, rfl⟩ := shape
  exact ⟨early, m, swarm, middle, x, event, after ++ rest, by simp, outcome, first⟩

theorem Unanswered.settle {outId : Nat} {out : OneshotId} (unanswered : Unanswered trace outId out) {event : Event}
    {result : Except String InferenceReply} (outcome : event.outcome = some (outId, result)) (m : World C) :
    ∃ peer dispatch, Answered (trace ++ [(m, .event event)]) peer dispatch out result := by
  obtain ⟨before, x, peer, dispatch, swarm, after, rfl, rfl, unsettled⟩ := unanswered
  exact ⟨peer, dispatch, before, x, swarm, after, m, event, [], by simp, outcome, unsettled⟩

def repliesAnswered (trace : List (World C × Label)) : Call → Prop
  | .replyInference out result => ∃ peer dispatch, Answered trace peer dispatch out result
  | _ => True

theorem minor_repliesAnswered (op : Call) (minor : op.minor) : repliesAnswered trace op := by
  cases op with
  | replyInference tx result => cases minor
  | _ => exact trivial

structure RepliesAnswered (trace : List (World C × Label)) (w : World C) : Prop where
  replies : ∀ out result, w.inferenceReplies out = some result →
    ∃ peer dispatch, Answered trace peer dispatch out result
  tasks : TasksSat (fun _ => repliesAnswered trace) (fun _ _ => True) w

theorem begins_repliesAnswered {before : List (World C × Label)} (clear : ∀ outId, loop.pendingInference outId = none)
    (run : Runs X (World.start loop archive ttl) before m) (shape : before ++ [(m, label)] <+: trace) {id : TaskId}
    {task : Task Unit} (begun : Begins X m label id task) :
    task.Sat (repliesAnswered trace) (fun _ _ => True) fun _ => True := by
  cases begun with
  | serve k req =>
    refine (serveChat_obeys _ _ req).sat fun phase op allowed => ?_
    cases allowed <;> exact trivial
  | drop k => exact trivial
  | command command swarm => exact handleCommand_calls minor_repliesAnswered m.loop command swarm fun _ _ _ => trivial
  | event event =>
    refine handleEvent_calls minor_repliesAnswered m.loop event (fun _ _ _ _ _ _ _ _ _ => trivial)
      (fun _ _ _ _ _ _ _ _ => ⟨trivial, fun _ => ⟨fun _ _ _ => trivial, fun _ => trivial⟩⟩) ?_
      fun _ _ _ _ _ _ _ => trivial
    intro outId result tx outcome pending
    obtain ⟨peer, dispatch, answered⟩ := ((pending_iff_unanswered clear run outId tx).mp pending).settle outcome m
    exact ⟨peer, dispatch, answered.mono shape⟩
  | forward => exact ⟨trivial, fun _ _ => ⟨trivial, fun _ _ => trivial⟩⟩
  | execute k stored known =>
    exact runSettlement_calls stored.job trivial (fun _ _ _ _ _ _ => trivial) (fun _ _ => trivial)
      (fun _ => trivial) fun _ => trivial

theorem dropChat_replies (w : World C) (k : Nat) : (w.dropChat k).inferenceReplies = w.inferenceReplies := by
  obtain ⟨_, _, shape, _⟩ := dropChat_eq w k
  rw [shape]
  rfl

theorem step_replies (step : Step X m label n) {out : OneshotId} {result : Except String InferenceReply}
    (replied : n.inferenceReplies out = some result) :
    m.inferenceReplies out = some result ∨ ∃ id, label = .call id (.replyInference out result) () := by
  cases step with
  | cancel k =>
    rw [dropChat_replies] at replied
    exact .inl replied
  | @call w'' id op next answer waiting answered =>
    change w''.inferenceReplies out = some result at replied
    cases performed answered with
    | replied tx sent =>
      by_cases same : out = tx
      · subst same
        simp only [Function.update_self, Option.some.injEq] at replied
        subst replied
        exact .inr ⟨id, rfl⟩
      · simp only [Function.update_of_ne same] at replied
        exact .inl replied
    | _ => exact .inl replied
  | _ => exact .inl replied

theorem replies_answered (clear : ∀ outId, loop.pendingInference outId = none)
    (run : Runs X (World.start loop archive ttl) trace w) : RepliesAnswered trace w := by
  refine run.history (I := fun _ w => RepliesAnswered trace w) ⟨nofun, fun _ => trivial⟩ ?_
  intro before m label n run shape step kept
  constructor
  · intro out result replied
    rcases step_replies step replied with old | ⟨id, rfl⟩
    · exact kept.replies out result old
    · exact kept.tasks.guaranteed step
  · apply kept.tasks.step step
    · exact fun _ _ begun => begins_repliesAnswered clear run shape begun
    · exact fun _ _ _ _ _ _ _ => trivial

def Panicked (trace : List (World C × Label)) : Prop :=
  ∃ m sender ack channel nowMs, (m, Label.event (.completion sender ack channel nowMs)) ∈ trace ∧
    Verified C ack ∧ m.loop.receiptFor sender ack nowMs = none

def panicsForReason (trace : List (World C × Label)) (op : Call) : Prop := op = .panic → Panicked trace

theorem minor_panicsForReason (op : Call) (minor : op.minor) : panicsForReason trace op := by
  intro same
  subst same
  cases minor

theorem begins_panics (member : (m, label) ∈ trace) {task : Task Unit} (begun : Begins X m label .eventLoop task) :
    task.Sat (panicsForReason trace) (fun _ _ => True) fun _ => True := by
  cases begun with
  | command command swarm => exact handleCommand_calls minor_panicsForReason m.loop command swarm fun _ _ _ => nofun
  | event event =>
    refine handleEvent_calls minor_panicsForReason m.loop event (fun _ _ _ _ _ _ _ _ _ => nofun)
      (fun _ _ _ _ _ _ _ _ => ⟨nofun, fun _ => ⟨fun _ _ _ => nofun, fun _ => nofun⟩⟩)
      (fun _ _ _ _ _ => nofun) ?_
    intro sender ack channel nowMs same verified unsigned _
    subst same
    exact ⟨m, sender, ack, channel, nowMs, member, verified, unsigned⟩

theorem panicked_of_loopGone (run : Runs X (World.start loop archive ttl) trace w) (gone : w.loopGone = true) :
    Panicked trace := by
  have sat : (w.tasks .eventLoop).Sat (panicsForReason trace) (fun _ _ => True) fun _ => True := by
    refine run.invariant (I := fun w => (w.tasks .eventLoop).Sat (panicsForReason trace) (fun _ _ => True)
      fun _ => True) trivial ?_
    intro m label n member step kept
    rcases step_task step .eventLoop with same | ⟨op, next, answer, _, rfl, waiting, _, moved⟩ | begun
    · rwa [same]
    · rw [moved]
      exact (kept.step waiting answer).2 trivial
    · exact begins_panics member begun
  unfold World.loopGone at gone
  split at gone
  · rename_i next panicked
    rw [panicked] at sat
    exact sat.1 rfl
  · cases gone

def Label.dispatchesOn (label : Label) : Option OneshotId :=
  match label.sends with
  | some (.dispatchInference _ _ out) => some out
  | _ => none

theorem Label.dispatchesOn_eq {out : OneshotId} (dispatches : label.dispatchesOn = some out) :
    ∃ peer dispatch, label.sends = some (.dispatchInference peer dispatch out) := by
  unfold Label.dispatchesOn at dispatches
  split at dispatches
  · rename_i peer dispatch other sent
    cases dispatches
    exact ⟨peer, dispatch, sent⟩
  · cases dispatches

theorem dispatching_phase (run : Runs X (World.start loop archive ttl) trace m) (step : Step X m label n)
    (handle : label.handleOnly) {peer : PeerId} {dispatch : InferenceDispatch} {out : OneshotId}
    (sent : label.sends = some (.dispatchInference peer dispatch out)) :
    ∃ k r tx bids, label = .call (.chat k) (.sendCommand (.dispatchInference peer dispatch out)) true ∧
      chatPhase k trace = .readied r tx bids out ∧ dispatch.dispatchToken.requestId = r ∧
      chatPhase k (trace ++ [(m, label)]) = .dispatched r tx bids out := by
  rcases sent_by_chat run step handle sent with ⟨k, rfl, allowed, moved⟩ | ⟨_, _, dial⟩ | ⟨_, query⟩
  · refine ⟨k, ?_⟩
    rw [moved]
    generalize chatPhase k trace = phase at allowed
    cases allowed with
    | @dispatch r tx _ bids _ _ own => exact ⟨r, tx, bids, rfl, rfl, own, rfl⟩
  · cases dial
  · cases query

theorem dispatched_once (run : Runs X (World.start loop archive ttl) trace w)
    (handle : ∀ step ∈ trace, step.2.handleOnly) : (trace.filterMap fun step => step.2.dispatchesOn).Nodup := by
  refine outlet_isTicket.used_once Label.dispatchesOn (fun phase => ∃ r tx bids out, phase = .dispatched r tx bids out)
    run ?_ ?_
  · intro phase op answer out allowed given _ held
    obtain ⟨r, tx, bids, sent, rfl⟩ := given
    cases allowed <;> cases held
  · intro before m label n out run shape step dispatches
    obtain ⟨peer, dispatch, sends⟩ := Label.dispatchesOn_eq dispatches
    obtain ⟨k, r, tx, bids, _, readied, _, moved⟩ := dispatching_phase run step (handle _ (Run.last_mem shape)) sends
    refine ⟨k, by rw [readied]; rfl, fun sent => ?_, fun _ => ⟨r, tx, bids, out, moved⟩⟩
    rw [readied] at sent
    obtain ⟨_, _, _, _, sent⟩ := sent
    cases sent

def DispatchedItself (k : Nat) (trace : List (World C × Label)) : Prop :=
  ∀ r tx bids out, chatPhase k trace = .dispatched r tx bids out → ∃ x peer dispatch,
    (x, Label.call (.chat k) (.sendCommand (.dispatchInference peer dispatch out)) true) ∈ trace ∧
    dispatch.dispatchToken.requestId = r

theorem dispatchedItself (run : Runs X (World.start loop archive ttl) trace w) (k : Nat) :
    DispatchedItself k trace := by
  refine run.history (I := fun trace _ => DispatchedItself k trace) (fun _ _ _ _ => nofun) ?_
  intro before m label n run _ step kept r tx bids out dispatched
  rcases chatPhase_step run step k with same | ⟨op, answer, rfl, allowed, moved⟩ | begun | ended
  · rw [same] at dispatched
    obtain ⟨x, peer, dispatch, member, own⟩ := kept r tx bids out dispatched
    exact ⟨x, peer, dispatch, List.mem_append_left _ member, own⟩
  · rw [moved] at dispatched
    generalize chatPhase k before = phase at allowed dispatched
    cases allowed with
    | @dispatch _ _ _ _ peer dispatch own =>
      cases answer with
      | false => cases dispatched
      | true =>
        cases dispatched
        exact ⟨m, peer, dispatch, by simp, own⟩
    | publish own => cases answer <;> cases dispatched
    | await => cases answer <;> cases dispatched
    | respond => cases phase <;> cases dispatched
    | _ => cases dispatched
  · rw [begun] at dispatched
    cases dispatched
  · rw [ended] at dispatched
    cases dispatched

def Label.awaits : Label → Option OneshotId
  | .call (.chat _) (.awaitInference out) _ => some out
  | _ => none

theorem Label.awaits_eq {out : OneshotId} (awaits : label.awaits = some out) :
    ∃ k result, label = .call (.chat k) (.awaitInference out) result := by
  cases label with
  | call id op answer =>
    cases id with
    | chat k =>
      cases op with
      | awaitInference other =>
        cases awaits
        exact ⟨k, answer, rfl⟩
      | _ => cases awaits
    | _ => cases awaits
  | _ => cases awaits

theorem awaiting_phase (run : Runs X (World.start loop archive ttl) trace m) {k : Nat} {out : OneshotId}
    {result : Except String InferenceReply} (step : Step X m (.call (.chat k) (.awaitInference out) result) n) :
    (∃ r tx bids, chatPhase k trace = .dispatched r tx bids out) ∧
      chatPhase k (trace ++ [(m, .call (.chat k) (.awaitInference out) result)]) = .ended := by
  have moved : chatPhase k (trace ++ [(m, .call (.chat k) (.awaitInference out) result)]) =
      (chatPhase k trace).advance (.awaitInference out) result := by
    rw [chatPhase, Tracking.state_snoc]
    exact Tracking.next_call _ _ _ _ _
  have allowed := (chatTracking C).allowed (chat_obeyed run k) step
  change (chatPhase k trace).Allowed _ at allowed
  rw [moved]
  generalize chatPhase k trace = phase at allowed
  cases allowed with
  | @result r tx _ bids => exact ⟨⟨r, tx, bids, rfl⟩, rfl⟩

theorem awaited_once (run : Runs X (World.start loop archive ttl) trace w) :
    (trace.filterMap fun step => step.2.awaits).Nodup := by
  refine outlet_isTicket.used_once Label.awaits (fun _ => False) run (fun _ never _ _ => never) ?_
  intro before m label n out run _ step awaits
  obtain ⟨k, result, rfl⟩ := Label.awaits_eq awaits
  obtain ⟨⟨r, tx, bids, dispatched⟩, finished⟩ := awaiting_phase run step
  refine ⟨k, by rw [dispatched]; rfl, id, fun held => ?_⟩
  rw [finished] at held
  cases held

theorem dispatch_unique (run : Runs X (World.start loop archive ttl) trace w)
    (handle : ∀ step ∈ trace, step.2.handleOnly) {peer other : PeerId} {dispatch another : InferenceDispatch}
    {out : OneshotId} (first : MeshCommand.dispatchInference peer dispatch out ∈ sentCommands trace)
    (second : MeshCommand.dispatchInference other another out ∈ sentCommands trace) :
    other = peer ∧ another = dispatch := by
  obtain ⟨x, member, sends⟩ := List.mem_filterMap.mp first
  obtain ⟨y, member', sends'⟩ := List.mem_filterMap.mp second
  have same := filterMap_unique (dispatched_once run handle) member member' (b := out)
    (by simp [Label.dispatchesOn, sends]) (by simp [Label.dispatchesOn, sends'])
  rw [same, sends'] at sends
  cases sends
  exact ⟨rfl, rfl⟩

theorem awaited_answered (clear : ∀ outId, loop.pendingInference outId = none)
    (run : Runs X (World.start loop archive ttl) trace m) (handle : ∀ step ∈ trace, step.2.handleOnly) {k : Nat}
    {out : OneshotId} {result : Except String InferenceReply}
    (step : Step X m (.call (.chat k) (.awaitInference out) result) n) :
    ∃ x peer dispatch,
      (x, Label.call (.chat k) (.sendCommand (.dispatchInference peer dispatch out)) true) ∈ trace ∧
      (chatPhase k trace).request = some dispatch.dispatchToken.requestId ∧
      (Answered trace peer dispatch out result ∨
        Panicked trace ∧ result = .error "dispatch-inference reply") := by
  obtain ⟨⟨r, tx, bids, dispatched⟩, _⟩ := awaiting_phase run step
  obtain ⟨x, peer, dispatch, member, own⟩ := dispatchedItself run k r tx bids out dispatched
  refine ⟨x, peer, dispatch, member, by rw [dispatched, own]; rfl, ?_⟩
  have sent : MeshCommand.dispatchInference peer dispatch out ∈ sentCommands trace :=
    List.mem_filterMap.mpr ⟨_, member, rfl⟩
  cases step with
  | call waiting answered =>
    cases performed answered with
    | silent quiet => cases quiet
    | result _ _ ready =>
      rcases ready with replied | ⟨gone, _, closed⟩
      · obtain ⟨other, another, answered⟩ := (replies_answered clear run).replies out result replied
        obtain ⟨before, y, swarm, middle, z, event, after, shape, _⟩ := id answered
        have handled : (y, Label.command (.dispatchInference other another out) swarm) ∈ trace := by
          rw [shape]
          exact List.mem_append_right _ List.mem_cons_self
        obtain ⟨rfl, rfl⟩ := dispatch_unique run handle sent (sent_of_handled run handled)
        exact .inl answered
      · exact .inr ⟨panicked_of_loopGone run gone, closed⟩

/-- No request gets anything that was meant for another. -/
structure NoCrossTalk (X : Externals) (trace : List (World C × Label)) (w : World C) : Prop where
  /-- A call is given bids for its own request only, in the order they were delivered to its channel. -/
  bids : ∀ before m k rx bids after, trace = before ++ (m, Label.call (.chat k) (.collectBids rx) bids) :: after →
    (chatPhase k before).request = some rx.request ∧ (∀ bid ∈ bids, bid.requestId = rx.request) ∧
      bids <+: deliveredTo rx before
  /-- A processed message is delivered to one channel at most, and deliveries keep processing order. -/
  deliveries : (deliveries trace).Sublist (offers X trace)
  /-- A channel serves one auction. -/
  auctions : (trace.filterMap fun step => step.2.collects).Nodup
  /-- A caller receives one result at most. -/
  results : (trace.filterMap fun step => step.2.awaits).Nodup
  /-- The result answers the caller's own dispatch, unless an oversize ack has killed the event loop. -/
  answers : ∀ before m k out result after,
    trace = before ++ (m, Label.call (.chat k) (.awaitInference out) result) :: after →
    ∃ x peer dispatch,
      (x, Label.call (.chat k) (.sendCommand (.dispatchInference peer dispatch out)) true) ∈ before ∧
      (chatPhase k before).request = some dispatch.dispatchToken.requestId ∧
      (Answered before peer dispatch out result ∨
        Panicked before ∧ result = .error "dispatch-inference reply")
  /-- The keys of `pending_inference` are the dispatches handled and not yet answered. -/
  pending : ∀ outId out, w.loop.pendingInference outId = some out ↔ Unanswered trace outId out

/-- Calls that run side by side never get each other's bids, results or outcomes. -/
theorem no_cross_talk (X : Externals) (key : C.SigningKey) (pgPool settlementTx : Bool)
    (archive : ReceiptArchive) (ttl : UInt64) (w : World C) (trace : List (World C × Label))
    (run : Runs X (World.start (EventLoop.new key pgPool settlementTx) archive ttl) trace w)
    (handle : ∀ step ∈ trace, step.2.handleOnly) : NoCrossTalk X trace w where
  bids := by
    intro before m k rx bids after shape
    obtain ⟨first, n, step, _⟩ := run.split shape
    have earlier : ∀ step ∈ before, step.2.handleOnly := fun taken member => handle taken (by rw [shape]; simp [member])
    obtain ⟨tx, joined, _⟩ := collecting_phase first earlier step
    have given : bids = (m.bids rx).collected := by
      cases step with
      | call waiting answered => exact collectBids_collected answered
    refine ⟨by rw [joined]; rfl, fun bid member => ?_, ?_⟩
    · rw [given] at member
      exact ((bidsTraced first earlier).collected rx bid member).1
    · rw [given, ← channel_delivered first rx]
      exact List.prefix_append _ _
  deliveries := deliveries_offered run
  auctions := collected_once run handle
  results := awaited_once run
  answers := by
    intro before m k out result after shape
    obtain ⟨first, n, step, _⟩ := run.split shape
    exact awaited_answered (fun _ => rfl) first (fun taken member => handle taken (by rw [shape]; simp [member])) step
  pending := pending_iff_unanswered (fun _ => rfl) run

theorem reach_answer (X : Externals) (w : World C) (reply : InferenceReply) {outId : Nat} {out : OneshotId}
    {answered : Except String InferenceReply → Task Unit} (idle : w.tasks .eventLoop = .done ())
    (pending : w.loop.pendingInference outId = some out)
    (awaiting : w.tasks (.chat 0) = .call (.awaitInference out) answered) :
    ∃ trace m w', Runs X w (trace ++ [(m, .call (.chat 0) (.awaitInference out) (.ok reply))]) w' ∧
      (∀ step ∈ trace, step.2.handleOnly ∧ (∀ k, step.2 ≠ .cancel k) ∧ step.2.publishes = none) ∧
      w'.tasks .eventLoop = .done () ∧ w'.tasks (.chat 0) = answered (.ok reply) ∧
      (∀ j, j ≠ 0 → w'.tasks (.chat j) = w.tasks (.chat j)) ∧ w'.loop.inFlight = w.loop.inFlight ∧
      w'.loop.pgPool = w.loop.pgPool := by
  let settled := w.notified X (.inferenceResponse outId reply)
  let replied : World C := { settled with
    inferenceReplies := Function.update settled.inferenceReplies out (some (.ok reply)) }.setTask .eventLoop (.done ())
  have replying : settled.tasks .eventLoop = .call (.replyInference out (.ok reply)) .done := by
    simp only [settled, World.notified, World.setTask_same, EventLoop.handleEvent, EventLoop.replyInference, pending]
    rfl
  have ready : replied.perform X (.awaitInference out) (.ok reply) = some replied :=
    if_pos (.inl (Function.update_self _ _ _))
  have waiting : replied.tasks (.chat 0) = .call (.awaitInference out) answered := awaiting
  have first : Step X w (.event (.inferenceResponse outId reply)) settled := .event idle
  have second : Step X settled (.call .eventLoop (.replyInference out (.ok reply)) ()) replied := .call replying rfl
  have third : Step X replied (.call (.chat 0) (.awaitInference out) (.ok reply))
      (replied.setTask (.chat 0) (answered (.ok reply))) := .call waiting ready
  have tables : settled.loop.inFlight = w.loop.inFlight ∧ settled.loop.pgPool = w.loop.pgPool := by
    simp only [settled, World.notified, World.setTask, EventLoop.handleEvent, EventLoop.replyInference, pending]
    exact ⟨trivial, trivial⟩
  refine ⟨[_, _], replied, _, .cons first (.cons second (.one third)), fun step member => ?_, rfl,
    World.setTask_same _ _ _, fun j apart => ?_, tables⟩
  · simp only [List.mem_cons, List.not_mem_nil, or_false] at member
    rcases member with rfl | rfl <;> exact ⟨trivial, by simp, rfl⟩
  · have other : TaskId.chat j ≠ .chat 0 := fun same => apart (TaskId.chat.inj same)
    have loop : TaskId.chat j ≠ .eventLoop := by simp
    simp only [replied, settled, World.notified, World.setTask, Function.update_of_ne other, Function.update_of_ne loop]

def otherRequestId : RequestId := ⟨Vector.replicate 16 1⟩

theorem chat_gets_own_answer :
    let C := Primitives.marking []
    let X := Externals.serde readSampleBid fun text => .ok ⟨text⟩
    ∃ trace m w out rx next,
      Runs X (World.start (EventLoop.new (C := C) (Vector.replicate 32 0) false false)
        (.inMemory fun _ => none) 60000)
        (trace ++ [(m, .call (.chat 0) (.awaitInference out) (.ok sampleReply))]) w ∧
      w.tasks (.chat 1) = .call (.collectBids rx) next ∧ rx.request = otherRequestId ∧
      publishedIds trace = [sampleRequest.requestId, otherRequestId] ∧
      NoCrossTalk X (trace ++ [(m, .call (.chat 0) (.awaitInference out) (.ok sampleReply))]) w := by
  intro C X
  obtain ⟨before, m, w, _, reached⟩ :=
    reach_dispatched X (C := C) (Vector.replicate 32 0) sampleBid (bidMessage "12D3KooWPeerNode1") rfl (if_pos rfl) rfl
  have apart : otherRequestId ≠ sampleBid.requestId := by decide
  obtain ⟨collected, asks, _⟩ := sampleChat_asks X (C := C) (Vector.replicate 32 0) otherRequestId sampleBid
    ⟨otherRequestId, w.serial⟩ ⟨otherRequestId, w.serial + 1⟩
  obtain ⟨during, x, opened, calm, published', aside', kept, idle', _, _, _, _, _, _, collecting⟩ :=
    reach_called X w 1 (reached.aside.chats 1 (by decide)) reached.idle reached.drained
      (by rw [reached.aside.abandoned]; rfl) (reached.aside.bids _ apart) ⟨reached.aside.options.1, reached.noPool⟩ asks
  have pending := (congrFun kept 4).trans reached.pending
  have awaiting := (aside'.chats 0 (by decide)).trans reached.awaiting
  obtain ⟨after, n, w', answer, quiet, _, _, others, _⟩ := reach_answer X x sampleReply idle' pending awaiting
  have run := (reached.run.append opened).append answer
  rw [← List.append_assoc] at run
  refine ⟨_, n, w', _, _, _, run, (others 1 (by decide)).trans collecting, rfl, ?_,
    no_cross_talk X _ false false _ _ w' _ run ?_⟩
  · have silent : publishedIds after = [] :=
      List.filterMap_eq_nil_iff.mpr fun step member => (quiet step member).2.2
    rw [publishedIds_append, publishedIds_append, reached.published, published', silent]
    rfl
  · simp only [List.mem_append, List.mem_singleton]
    intro step given
    rcases given with (((inside | last) | inside) | inside) | rfl
    · exact (reached.clean step (List.mem_append_left _ inside)).1
    · exact (reached.clean step (List.mem_append_right _ (List.mem_singleton.mpr last))).1
    · exact (calm step inside).2
    · exact (quiet step inside).1
    · exact trivial

end Coordinator
