import Pinaivu.Coordinator.BidOrigin
import Pinaivu.Coordinator.Tickets

namespace Coordinator

open Protocol Crypto Async

variable {C : Primitives} {X : Externals} {loop : EventLoop C} {archive : ReceiptArchive} {ttl : UInt64}
  {w m n : World C} {trace : List (World C × Label)} {label : Label}

def Opened (trace : List (World C × Label)) (r : RequestId) (tx : OneshotId) : Prop :=
  ∃ m request swarm, (m, Label.command (.publish request tx) swarm) ∈ trace ∧ swarm.published = .ok () ∧
    request.requestId = r

theorem Opened.snoc {r : RequestId} {tx : OneshotId} (opened : Opened trace r tx) (step : World C × Label) :
    Opened (trace ++ [step]) r tx := by
  rcases opened with ⟨m, request, swarm, member, published, own⟩
  exact ⟨m, request, swarm, List.mem_append_left _ member, published, own⟩

theorem Opened.published {r : RequestId} {tx : OneshotId} (opened : Opened trace r tx) :
    r ∈ publishedIds trace := by
  rcases opened with ⟨m, request, swarm, member, published, rfl⟩
  refine List.mem_filterMap.mpr ⟨_, member, ?_⟩
  simp [Label.publishes, published]

def Label.uses : Label → Option Nat
  | .command _ swarm => some swarm.bidChannel
  | _ => none

theorem command_serial {command : MeshCommand} {swarm : SwarmAnswers}
    (step : Step X m (.command command swarm) n) :
    swarm.bidChannel = m.serial ∧ swarm.outId = m.serial ∧ n.serial = m.serial + 1 := by
  cases step with
  | command idle queued fresh outFresh => exact ⟨fresh, outFresh, rfl⟩

structure SerialsUsed (trace : List (World C × Label)) (w : World C) : Prop where
  below : ∀ serial ∈ trace.filterMap (fun step => step.2.uses), serial < w.serial
  once : (trace.filterMap fun step => step.2.uses).Nodup

theorem serialsUsed (run : Runs X (World.start loop archive ttl) trace w) : SerialsUsed trace w := by
  refine run.history (I := SerialsUsed) ⟨nofun, List.nodup_nil⟩ ?_
  intro before m label n _ _ step kept
  have more := step_serial step
  have new {serial : Nat} (uses : label.uses = some serial) : serial = m.serial ∧ n.serial = m.serial + 1 := by
    cases label with
    | command command swarm =>
      cases uses
      obtain ⟨channel, _, next⟩ := command_serial step
      exact ⟨channel, next⟩
    | _ => cases uses
  refine ⟨fun serial member => ?_, ?_⟩
  · rw [filterMap_snoc, List.mem_append, Option.mem_toList] at member
    rcases member with old | uses
    · exact Nat.lt_of_lt_of_le (kept.below serial old) more
    · obtain ⟨rfl, next⟩ := new uses
      omega
  · rw [filterMap_snoc]
    refine nodup_snoc kept.once fun serial uses old => ?_
    obtain ⟨rfl, _⟩ := new uses
    exact Nat.lt_irrefl _ (kept.below _ old)

/-- A publish command that answers on `tx` has made the channel. -/
def Minted (trace : List (World C × Label)) (rx : BidChannelId) (tx : OneshotId) : Prop :=
  ∃ m request swarm, (m, Label.command (.publish request tx) swarm) ∈ trace ∧ swarm.published = .ok () ∧
    rx = ⟨request.requestId, swarm.bidChannel⟩

theorem Minted.opened {rx : BidChannelId} {tx : OneshotId} (minted : Minted trace rx tx) :
    Opened trace rx.request tx := by
  rcases minted with ⟨m, request, swarm, member, published, rfl⟩
  exact ⟨m, request, swarm, member, published, rfl⟩

theorem Minted.mono {before : List (World C × Label)} {rx : BidChannelId} {tx : OneshotId}
    (minted : Minted before rx tx) (shape : before <+: trace) : Minted trace rx tx := by
  rcases minted with ⟨m, request, swarm, member, published, same⟩
  exact ⟨m, request, swarm, shape.subset member, published, same⟩

theorem Minted.unique (run : Runs X (World.start loop archive ttl) trace w) {rx : BidChannelId}
    {tx other : OneshotId} (first : Minted trace rx tx) (second : Minted trace rx other) : tx = other := by
  rcases first with ⟨m, request, swarm, member, _, rfl⟩
  rcases second with ⟨m', request', swarm', member', _, same⟩
  rw [BidChannelId.mk.injEq] at same
  have step := filterMap_unique (serialsUsed run).once member member' rfl (congrArg some same.2.symm)
  cases step
  rfl

theorem Minted.of_request (once : (publishedIds trace).Nodup) {rx other : BidChannelId} {tx tx' : OneshotId}
    (first : Minted trace rx tx) (second : Minted trace other tx') (same : rx.request = other.request) :
    rx = other := by
  rcases first with ⟨m, request, swarm, member, published, rfl⟩
  rcases second with ⟨m', request', swarm', member', published', rfl⟩
  change request.requestId = request'.requestId at same
  have step := filterMap_unique once member member' (b := request.requestId)
    (by simp [Label.publishes, published]) (by simp [Label.publishes, published', same])
  cases step
  rfl

def replyMinted (trace : List (World C × Label)) : Call → Prop
  | .replyPublish tx result => ∀ rx, result = .ok rx → Minted trace rx tx
  | _ => True

theorem plain_replyMinted (op : Call) (plain : op.plain) : replyMinted trace op := by
  cases op with
  | replyPublish tx result => cases plain
  | _ => exact trivial

structure RepliesMinted (trace : List (World C × Label)) (w : World C) : Prop where
  replies : ∀ tx rx, w.publishReplies tx = some (.ok rx) → Minted trace rx tx
  task : (w.tasks .eventLoop).Sat (replyMinted trace) (fun _ _ => True) fun _ => True

theorem begins_replyMinted {task : Task Unit} (begun : Begins X m label .eventLoop task) :
    task.Sat (replyMinted (trace ++ [(m, label)])) (fun _ _ => True) fun _ => True := by
  cases begun with
  | command command swarm =>
    apply handleCommand_sat plain_replyMinted
    intro request tx same rx replied
    subst same
    have outcome : swarm.published = .ok () := by
      cases outcome : swarm.published with
      | ok => rfl
      | error e => simp [EventLoop.publishRequest, outcome] at replied
    simp only [EventLoop.publishRequest, outcome, Except.ok.injEq] at replied
    exact ⟨m, request, swarm, by simp, outcome, replied.symm⟩
  | event event =>
    exact handleEvent_sat plain_replyMinted m.loop event (fun _ _ _ _ _ _ _ _ _ => trivial)
      fun _ _ _ _ _ _ _ _ => ⟨trivial, fun _ => ⟨fun _ _ _ => trivial, fun _ => trivial⟩⟩

theorem replyMinted_snoc (step : World C × Label) (op : Call) (opened : replyMinted trace op) :
    replyMinted (trace ++ [step]) op := by
  cases op with
  | replyPublish tx result => exact fun rx replied => (opened rx replied).mono (List.prefix_append _ _)
  | _ => exact trivial

theorem repliesMinted (run : Runs X (World.start loop archive ttl) trace w) : RepliesMinted trace w := by
  refine run.history (I := RepliesMinted) ⟨nofun, trivial⟩ ?_
  intro before m label n run _ step kept
  have wider (op : Call) : replyMinted before op → replyMinted (before ++ [(m, label)]) op :=
    replyMinted_snoc (m, label) op
  constructor
  · intro tx rx found
    cases step with
    | @call w'' id op next answer waiting answered =>
      rcases (perform_effect answered).replies tx rx found with old | rfl
      · exact (kept.replies tx rx old).mono (List.prefix_append _ _)
      · have own := call_owned (run.snoc (.call waiting answered)) (List.mem_append_right _ (List.mem_singleton.mpr rfl))
        cases id with
        | eventLoop => exact ((kept.task.step waiting answer).1 rx rfl).mono (List.prefix_append _ _)
        | _ => cases own
    | cancel k =>
      rw [(dropChat_bids m k).1] at found
      exact (kept.replies tx rx found).mono (List.prefix_append _ _)
    | _ => exact (kept.replies tx rx found).mono (List.prefix_append _ _)
  · rcases step_starts step .eventLoop with ⟨_, ⟨_, same⟩ | ⟨_, begun⟩⟩ | ⟨op, next, answer, _, rfl, waiting, _, moved⟩
    · rw [same]
      exact kept.task.mono wider
    · exact begins_replyMinted begun
    · rw [moved]
      exact ((kept.task.step waiting answer).2 trivial).mono wider

theorem sent_by_chat (run : Runs X (World.start loop archive ttl) trace m) (step : Step X m label n)
    (handle : label.handleOnly) {command : MeshCommand} (sent : label.sends = some command) :
    (∃ k, label = .call (.chat k) (.sendCommand command) true ∧
      (chatPhase k trace).Allowed (.sendCommand command) ∧
      chatPhase k (trace ++ [(m, label)]) = (chatPhase k trace).advance (.sendCommand command) true) ∨
      (∃ addr tx, command = .dial addr tx) ∨ ∃ tx, command = .listenAddrs tx := by
  cases label with
  | call id op answer =>
    cases op with
    | sendCommand other =>
      cases answer with
      | false => cases sent
      | true =>
        cases sent
        have own := call_owned (run.snoc step) (List.mem_append_right _ (List.mem_singleton.mpr rfl))
        cases id with
        | chat k =>
          refine .inl ⟨k, rfl, (chatTracking C).allowed (chat_obeyed run k) step, ?_⟩
          rw [chatPhase, Tracking.state_snoc]
          exact Tracking.next_call _ _ _ _ _
        | _ => cases own
    | _ => cases sent
  | external other =>
    cases sent
    cases command with
    | dial addr tx => exact .inr (.inl ⟨addr, tx, rfl⟩)
    | listenAddrs tx => exact .inr (.inr ⟨tx, rfl⟩)
    | _ => exact handle.elim
  | _ => cases sent

theorem publishesOwn (run : Runs X (World.start loop archive ttl) trace w)
    (handle : ∀ step ∈ trace, step.2.handleOnly) {request : InferenceRequest} {tx : OneshotId}
    (sent : MeshCommand.publish request tx ∈ sentCommands trace) : tx.serial < w.serial ∧
      ∀ k, (chatPhase k trace).ticket = some tx → (chatPhase k trace).request = some request.requestId := by
  refine ticket_isTicket.spent (fun trace (a : InferenceRequest × OneshotId) =>
    MeshCommand.publish a.1 a.2 ∈ sentCommands trace) Prod.snd
    (fun a phase => phase.request = some a.1.requestId) (a := (request, tx)) run nofun ?_ ?_ sent
  · intro a phase op answer allowed known had held
    rw [ChatPhase.advance_request allowed had held, known]
  · intro before m label n given run shape step sent
    obtain ⟨request, tx⟩ := given
    rw [sentCommands_snoc, List.mem_append, Option.mem_toList] at sent
    refine sent.imp_right fun new => ?_
    rcases sent_by_chat run step (handle _ (Run.last_mem shape)) new with
      ⟨k, rfl, allowed, moved⟩ | ⟨_, _, dial⟩ | ⟨_, query⟩
    · refine ⟨k, ?_⟩
      rw [moved]
      generalize chatPhase k before = phase at allowed
      cases allowed with
      | publish own => exact ⟨rfl, fun _ => congrArg some own.symm⟩
    · cases dial
    · cases query

theorem sent_of_handled (run : Runs X (World.start loop archive ttl) trace w) {command : MeshCommand}
    {swarm : SwarmAnswers} (member : (m, Label.command command swarm) ∈ trace) : command ∈ sentCommands trace := by
  rw [commands_in_order run]
  exact List.mem_append_left _ (List.mem_filterMap.mpr ⟨_, member, rfl⟩)

def Label.publishesOn (label : Label) : Option OneshotId :=
  match label.sends with
  | some (.publish _ tx) => some tx
  | _ => none

theorem Label.publishesOn_eq {tx : OneshotId} (publishes : label.publishesOn = some tx) :
    ∃ request, label.sends = some (.publish request tx) := by
  unfold Label.publishesOn at publishes
  split at publishes
  · rename_i request other sent
    cases publishes
    exact ⟨request, sent⟩
  · cases publishes

theorem published_once (run : Runs X (World.start loop archive ttl) trace w)
    (handle : ∀ step ∈ trace, step.2.handleOnly) : (trace.filterMap fun step => step.2.publishesOn).Nodup := by
  refine ticket_isTicket.used_once Label.publishesOn (fun phase => ∀ r tx, phase ≠ .opened r tx) run ?_ ?_
  · intro phase op answer tx allowed past had _ r own moved
    cases allowed with
    | open_reply => cases had
    | publish own => cases answer <;> cases moved
    | await => cases answer <;> cases moved
    | dispatch own => cases answer <;> cases moved
    | respond => cases phase <;> cases moved
    | _ => cases moved
  · intro before m label n tx run shape step publishes
    obtain ⟨request, sends⟩ := Label.publishesOn_eq publishes
    rcases sent_by_chat run step (handle _ (Run.last_mem shape)) sends with
      ⟨k, rfl, allowed, moved⟩ | ⟨_, _, dial⟩ | ⟨_, query⟩
    · refine ⟨k, ?_⟩
      rw [moved]
      generalize chatPhase k before = phase at allowed
      cases allowed with
      | publish own => exact ⟨rfl, fun past => past _ _ rfl, fun _ _ _ => nofun⟩
    · cases dial
    · cases query

theorem publish_unique (run : Runs X (World.start loop archive ttl) trace w)
    (handle : ∀ step ∈ trace, step.2.handleOnly) {request other : InferenceRequest} {tx : OneshotId}
    (first : MeshCommand.publish request tx ∈ sentCommands trace)
    (second : MeshCommand.publish other tx ∈ sentCommands trace) : other = request := by
  obtain ⟨x, member, sends⟩ := List.mem_filterMap.mp first
  obtain ⟨y, member', sends'⟩ := List.mem_filterMap.mp second
  have same := filterMap_unique (published_once run handle) member member' (b := tx)
    (by simp [Label.publishesOn, sends]) (by simp [Label.publishesOn, sends'])
  rw [same, sends'] at sends
  cases sends
  rfl

theorem subscriber_used (unsubscribed : ∀ r, loop.bidSubscribers r = none)
    (run : Runs X (World.start loop archive ttl) trace w) {r : RequestId} {rx : BidChannelId}
    (subscribed : w.loop.bidSubscribers r = some rx) : rx.serial ∈ trace.filterMap fun step => step.2.uses := by
  revert subscribed
  refine run.history (I := fun trace w => w.loop.bidSubscribers r = some rx →
    rx.serial ∈ trace.filterMap fun step => step.2.uses) ?_ ?_
  · intro subscribed
    rw [show (World.start loop archive ttl).loop = loop from rfl, unsubscribed] at subscribed
    cases subscribed
  · intro before m label n _ _ step kept subscribed
    rw [filterMap_snoc, List.mem_append, Option.mem_toList]
    cases step with
    | cancel k =>
      rw [(dropChat_keeps m k).1] at subscribed
      exact .inl (kept subscribed)
    | @call w'' id op next answer waiting answered =>
      change w''.loop.bidSubscribers r = some rx at subscribed
      rw [(perform_effect answered).loop] at subscribed
      exact .inl (kept subscribed)
    | @command command rest swarm idle queued fresh outFresh =>
      rcases handleCommand_subscribes m.loop command swarm subscribed with old | ⟨_, minted⟩
      · exact .inl (kept old)
      · exact .inr (congrArg some minted.symm)
    | event idle =>
      rw [← handleEvent_subscribers m.loop] at kept
      exact .inl (kept subscribed)
    | _ => exact .inl (kept subscribed)

/-- The handler of `r` has been given these bids. -/
def Collected (trace : List (World C × Label)) (r : RequestId) (bids : List InferenceBid) : Prop :=
  ∃ m k rx, (m, Label.call (.chat k) (.collectBids rx) bids) ∈ trace ∧ rx.request = r

theorem Collected.snoc {r : RequestId} {bids : List InferenceBid} (collected : Collected trace r bids)
    (step : World C × Label) : Collected (trace ++ [step]) r bids := by
  rcases collected with ⟨m, k, rx, member, own⟩
  exact ⟨m, k, rx, List.mem_append_left _ member, own⟩

def Addressed (trace : List (World C × Label)) (r : RequestId) : Prop :=
  ∃ addresses, MeshCommand.setPayoutAddresses r addresses ∈ sentCommands trace

theorem Addressed.snoc {r : RequestId} (addressed : Addressed trace r) (m : World C) (label : Label) :
    Addressed (trace ++ [(m, label)]) r := by
  rcases addressed with ⟨addresses, sent⟩
  refine ⟨addresses, ?_⟩
  rw [sentCommands_snoc]
  exact List.mem_append_left _ sent

theorem step_loopGone (step : Step X m label n) (gone : m.loopGone = true) : n.loopGone = true := by
  have panicked : ∃ next, m.tasks .eventLoop = .call .panic next := by
    unfold World.loopGone at gone
    split at gone
    · exact ⟨_, by assumption⟩
    · cases gone
  obtain ⟨next, panicked⟩ := panicked
  have stays : n.tasks .eventLoop = .call .panic next := by
    rcases step_starts step .eventLoop with ⟨_, ⟨_, same⟩ | ⟨starts, begun⟩⟩ | ⟨op, next', answer, _, rfl, waiting, _⟩
    · rw [same, panicked]
    · cases step with
      | command idle => rw [panicked] at idle; cases idle
      | event idle => rw [panicked] at idle; cases idle
      | _ => cases starts
    · rw [panicked] at waiting
      cases waiting
      exact answer.elim
  rw [World.loopGone, stays]

/-- What a call has seen done on its way to its phase. -/
def ChatPhase.Sound (trace : List (World C × Label)) (w : World C) : ChatPhase → Prop
  | .joined r tx rx => Minted trace rx tx ∧ rx.request = r
  | .collected r tx bids => Opened trace r tx ∧ Collected trace r bids
  | .addressed r tx bids => (Opened trace r tx ∧ Collected trace r bids) ∧ (Addressed trace r ∨ w.loopGone = true)
  | .readied r tx bids _ => (Opened trace r tx ∧ Collected trace r bids) ∧ (Addressed trace r ∨ w.loopGone = true)
  | .dispatched r tx bids _ =>
    (Opened trace r tx ∧ Collected trace r bids) ∧ (Addressed trace r ∨ w.loopGone = true)
  | _ => True

theorem ChatPhase.Sound.snoc {phase : ChatPhase} (sound : phase.Sound trace m) (step : Step X m label n) :
    phase.Sound (trace ++ [(m, label)]) n := by
  have both {r : RequestId} {tx : OneshotId} {bids : List InferenceBid}
      (seen : Opened trace r tx ∧ Collected trace r bids) :
      Opened (trace ++ [(m, label)]) r tx ∧ Collected (trace ++ [(m, label)]) r bids :=
    ⟨seen.1.snoc _, seen.2.snoc _⟩
  have told {r : RequestId} (known : Addressed trace r ∨ m.loopGone = true) :
      Addressed (trace ++ [(m, label)]) r ∨ n.loopGone = true :=
    known.imp (fun addressed => addressed.snoc m label) (step_loopGone step)
  cases phase with
  | joined r tx rx => exact ⟨sound.1.mono (List.prefix_append _ _), sound.2⟩
  | collected r tx bids => exact both sound
  | addressed r tx bids => exact ⟨both sound.1, told sound.2⟩
  | readied r tx bids out => exact ⟨both sound.1, told sound.2⟩
  | dispatched r tx bids out => exact ⟨both sound.1, told sound.2⟩
  | _ => exact trivial

theorem awaited_minted (run : Runs X (World.start loop archive ttl) trace m)
    (handle : ∀ step ∈ trace, step.2.handleOnly) {k : Nat} {r : RequestId} {tx : OneshotId} {rx : BidChannelId}
    (asked : chatPhase k trace = .asked r tx) (step : Step X m (.call (.chat k) (.awaitPublish tx) (.ok rx)) n) :
    Minted trace rx tx ∧ rx.request = r := by
  have replied : m.publishReplies tx = some (.ok rx) := by
    cases step with
    | call waiting answered => exact awaitPublish_reply answered
  have minted := (repliesMinted run).replies tx rx replied
  refine ⟨minted, ?_⟩
  obtain ⟨_, request, _, member, _, rfl⟩ := minted
  have holder := (publishesOwn run handle (sent_of_handled run member)).2 k (by rw [asked]; rfl)
  rw [asked] at holder
  exact (Option.some.inj holder).symm

theorem sound_of_run (run : Runs X (World.start loop archive ttl) trace w)
    (handle : ∀ step ∈ trace, step.2.handleOnly) (k : Nat) : (chatPhase k trace).Sound trace w := by
  refine run.history (I := fun trace w => (chatPhase k trace).Sound trace w) trivial ?_
  intro before m label n run shape step sound
  have earlier : ∀ step ∈ before, step.2.handleOnly := fun taken member =>
    handle taken (Run.init_mem shape member)
  rcases chatPhase_step run step k with same | ⟨op, answer, rfl, allowed, moved⟩ | begun | ended
  · rw [same]
    exact sound.snoc step
  · rw [moved]
    have later := sound.snoc step
    generalize at_phase : chatPhase k before = phase at allowed sound later
    cases allowed with
    | publish own => cases answer <;> exact trivial
    | await =>
      cases answer with
      | error e => exact trivial
      | ok rx =>
        obtain ⟨minted, own⟩ := awaited_minted run earlier at_phase step
        exact ⟨minted.mono (List.prefix_append _ _), own⟩
    | @collect r tx rx =>
      obtain ⟨minted, rfl⟩ := later
      exact ⟨minted.opened, m, k, rx, by simp, rfl⟩
    | warmth => exact later
    | @address r tx bids =>
      refine ⟨later, ?_⟩
      cases answer with
      | true =>
        refine .inl ⟨payoutAddresses bids, ?_⟩
        rw [sentCommands_snoc]
        simp [Label.sends]
      | false =>
        refine .inr (step_loopGone step ?_)
        cases step with
        | call waiting answered =>
          cases performed answered with
          | silent quiet => cases quiet
          | unsent _ gone => exact gone
    | clock => exact later
    | key => exact later
    | open_result => exact later
    | dispatch own =>
      cases answer with
      | false => exact trivial
      | true => exact later
    | respond => cases phase <;> exact trivial
    | _ => exact trivial
  · rw [begun]
    exact trivial
  · rw [ended]
    exact trivial

theorem collecting_phase (run : Runs X (World.start loop archive ttl) trace m)
    (handle : ∀ step ∈ trace, step.2.handleOnly) {k : Nat} {rx : BidChannelId} {bids : List InferenceBid}
    (step : Step X m (.call (.chat k) (.collectBids rx) bids) n) :
    ∃ tx, chatPhase k trace = .joined rx.request tx rx ∧ Minted trace rx tx ∧
      chatPhase k (trace ++ [(m, .call (.chat k) (.collectBids rx) bids)]) = .collected rx.request tx bids := by
  have sound := sound_of_run run handle k
  have moved : chatPhase k (trace ++ [(m, .call (.chat k) (.collectBids rx) bids)]) =
      (chatPhase k trace).advance (.collectBids rx) bids := by
    rw [chatPhase, Tracking.state_snoc]
    exact Tracking.next_call _ _ _ _ _
  have allowed := (chatTracking C).allowed (chat_obeyed run k) step
  change (chatPhase k trace).Allowed _ at allowed
  generalize chatPhase k trace = phase at allowed sound moved
  cases allowed with
  | @collect r tx =>
    obtain ⟨minted, rfl⟩ := sound
    exact ⟨tx, rfl, minted, moved⟩

def Label.collects : Label → Option BidChannelId
  | .call (.chat _) (.collectBids rx) _ => some rx
  | _ => none

theorem Label.collects_eq {rx : BidChannelId} (collects : label.collects = some rx) :
    ∃ k bids, label = .call (.chat k) (.collectBids rx) bids := by
  cases label with
  | call id op answer =>
    cases id with
    | chat k =>
      cases op with
      | collectBids other =>
        cases collects
        exact ⟨k, answer, rfl⟩
      | _ => cases collects
    | _ => cases collects
  | _ => cases collects

def Spent (trace : List (World C × Label)) (use : OneshotId × BidChannelId) : Prop :=
  ∃ before m k bids after, trace = before ++ (m, Label.call (.chat k) (.collectBids use.2) bids) :: after ∧
    (chatPhase k before).ticket = some use.1

theorem spent_bids (run : Runs X (World.start loop archive ttl) trace w)
    (handle : ∀ step ∈ trace, step.2.handleOnly) {tx : OneshotId} {rx : BidChannelId}
    (spent : Spent trace (tx, rx)) {k : Nat} (held : (chatPhase k trace).ticket = some tx) :
    (chatPhase k trace).bids ≠ none := by
  refine (ticket_isTicket.spent Spent Prod.fst (fun _ phase => phase.bids ≠ none) run ?_ ?_ ?_
    spent).2 k held
  · intro a given
    obtain ⟨before, m, k, bids, after, shape, _⟩ := given
    exact absurd shape.symm (List.append_ne_nil_of_right_ne_nil _ (List.cons_ne_nil _ _))
  · intro a phase op answer allowed known _ held
    obtain ⟨bids, had⟩ := Option.ne_none_iff_exists'.mp known
    rw [ChatPhase.advance_bids allowed had held]
    exact nofun
  · intro before m label n given run shape step found
    obtain ⟨tx, rx⟩ := given
    obtain ⟨early, x, k, bids, late, split, holding⟩ := found
    rcases snoc_eq_split split with ⟨rfl, same, _⟩ | ⟨rest, _, inside⟩
    · cases same
      obtain ⟨_, _, _, moved⟩ := collecting_phase run (fun taken member => handle taken (Run.init_mem shape member)) step
      refine .inr ⟨k, holding, fun _ => ?_⟩
      rw [moved]
      exact nofun
    · exact .inl ⟨early, x, k, bids, rest, inside, holding⟩

theorem collected_once (run : Runs X (World.start loop archive ttl) trace w)
    (handle : ∀ step ∈ trace, step.2.handleOnly) : (trace.filterMap fun step => step.2.collects).Nodup := by
  refine run.history (I := fun trace _ => (trace.filterMap fun step => step.2.collects).Nodup) List.nodup_nil ?_
  intro before m label n run shape step kept
  have earlier : ∀ step ∈ before, step.2.handleOnly := fun taken member =>
    handle taken (Run.init_mem shape member)
  rw [filterMap_snoc]
  refine nodup_snoc kept fun rx collects old => ?_
  obtain ⟨k, bids, rfl⟩ := Label.collects_eq collects
  obtain ⟨tx, joined, minted, _⟩ := collecting_phase run earlier step
  rw [List.mem_filterMap] at old
  obtain ⟨⟨x, taken⟩, member, collects'⟩ := old
  obtain ⟨k', bids', rfl⟩ := Label.collects_eq collects'
  obtain ⟨early, late, split⟩ := List.append_of_mem member
  obtain ⟨first, y, step', _⟩ := run.split split
  have prefixed : early <+: before := split ▸ List.prefix_append _ _
  obtain ⟨tx', joined', minted', _⟩ := collecting_phase first
    (fun taken member => earlier taken (prefixed.subset member)) step'
  obtain rfl := minted.unique run (minted'.mono prefixed)
  have spent : Spent before (tx, rx) := ⟨early, x, k', bids', late, split, by rw [joined']; rfl⟩
  apply spent_bids run earlier spent (k := k)
  · rw [joined]
    rfl
  · rw [joined]
    rfl

theorem minted_of_collected (run : Runs X (World.start loop archive ttl) trace w)
    (handle : ∀ step ∈ trace, step.2.handleOnly) {k : Nat} {rx : BidChannelId} {bids : List InferenceBid}
    (member : (m, Label.call (.chat k) (.collectBids rx) bids) ∈ trace) : ∃ tx, Minted trace rx tx := by
  obtain ⟨early, late, split⟩ := List.append_of_mem member
  obtain ⟨first, _, step, _⟩ := run.split split
  have prefixed : early <+: trace := split ▸ List.prefix_append _ _
  obtain ⟨tx, _, minted, _⟩ := collecting_phase first
    (fun taken inside => handle taken (prefixed.subset inside)) step
  exact ⟨tx, minted.mono prefixed⟩

theorem Collected.opened (run : Runs X (World.start loop archive ttl) trace w)
    (handle : ∀ step ∈ trace, step.2.handleOnly) {r : RequestId} {bids : List InferenceBid}
    (collected : Collected trace r bids) : ∃ tx, Opened trace r tx := by
  obtain ⟨m, k, rx, member, rfl⟩ := collected
  obtain ⟨tx, minted⟩ := minted_of_collected run handle member
  exact ⟨tx, minted.opened⟩

theorem Collected.unique (run : Runs X (World.start loop archive ttl) trace w)
    (handle : ∀ step ∈ trace, step.2.handleOnly) (once : (publishedIds trace).Nodup) {r : RequestId}
    {bids other : List InferenceBid} (first : Collected trace r bids) (second : Collected trace r other) :
    bids = other := by
  obtain ⟨m, k, rx, member, rfl⟩ := first
  obtain ⟨m', k', rx', member', same⟩ := second
  obtain ⟨tx, minted⟩ := minted_of_collected run handle member
  obtain ⟨tx', minted'⟩ := minted_of_collected run handle member'
  obtain rfl := minted.of_request once minted' same.symm
  have step := filterMap_unique (collected_once run handle) member member' (b := rx) rfl rfl
  cases step
  rfl

end Coordinator
