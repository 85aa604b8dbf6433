import Pinaivu.Coordinator.Bookkeeping
import Pinaivu.Coordinator.Wiring

namespace Coordinator

open Protocol Crypto Async

variable {C : Primitives} {X : Externals} {w m n : World C} {label : Label}

def World.settled (w : World C) : Prop := w.tasks .eventLoop = .done () ∨ w.loopGone = true

theorem loop_call_answered {op : Call} (may : loopMay w.loop op) (bids : ∀ rx bid, op ≠ .sendBid rx bid)
    (panics : op ≠ .panic) : ∃ answer w', w.perform X op answer = some w' := by
  cases op with
  | newUuid => exact ⟨⟨Vector.replicate 16 0⟩, w, rfl⟩
  | sendResponse channel response => exact ⟨(), _, rfl⟩
  | addAddress peer addr => exact ⟨(), _, rfl⟩
  | upsertPeer peer caps addrs nowMs => exact ⟨(), _, rfl⟩
  | observeAddrs peer addrs => exact ⟨(), _, rfl⟩
  | evictStale nowMs => exact ⟨(), _, rfl⟩
  | upsertSessionCache peer session => exact ⟨.ok (), _, rfl⟩
  | replyDial tx result => exact ⟨(), _, rfl⟩
  | replyListenAddrs tx addrs => exact ⟨(), _, rfl⟩
  | putReceipt receipt => exact ⟨.ok (), _, rfl⟩
  | insertPayment row => exact ⟨.ok (), _, rfl⟩
  | trySendJob job =>
    by_cases room : w.jobs.length < jobCapacity
    · exact ⟨.ok (), _, if_pos room⟩
    · exact ⟨.error "full", _, if_neg room⟩
  | sendBid rx bid => exact absurd rfl (bids rx bid)
  | panic => exact absurd rfl panics
  | _ => cases may

theorem collecting_of_stance {k : Nat} {rx : BidChannelId} (collects : w.handshake.stance k = .joined rx) :
    ∃ next, w.tasks (.chat k) = .call (.collectBids rx) next := by
  simp only [World.handshake, World.stance] at collects
  cases shape : w.tasks (.chat k) with
  | done a =>
    rw [shape] at collects
    cases collects
  | call op next =>
    rw [shape] at collects
    cases op with
    | collectBids other =>
      cases collects
      exact ⟨next, rfl⟩
    | sendCommand command => cases command <;> cases collects
    | _ => cases collects

theorem awaiting_of_stance {k : Nat} {tx : OneshotId} (waits : w.handshake.stance k = .waiting tx) :
    ∃ next, w.tasks (.chat k) = .call (.awaitPublish tx) next := by
  simp only [World.handshake, World.stance] at waits
  cases shape : w.tasks (.chat k) with
  | done a =>
    rw [shape] at waits
    cases waits
  | call op next =>
    rw [shape] at waits
    cases op with
    | awaitPublish other =>
      cases waits
      exact ⟨next, rfl⟩
    | sendCommand command => cases command <;> cases waits
    | _ => cases waits

/-- The event loop gets past a bid: the channel takes it, or its receiver goes away. -/
def PastBid (X : Externals) (w : World C) (next : Bool → Task Unit) : Prop :=
  Possible (Step X) (fun label => label.isCall = true)
    (fun v => Wired v ∧ v.commands = w.commands ∧ ∃ answer, v.tasks .eventLoop = next answer) w

variable {rx : BidChannelId} {bid : InferenceBid} {next : Bool → Task Unit}

theorem past_closed (wired : Wired w) (blocked : w.tasks .eventLoop = .call (.sendBid rx bid) next)
    (closed : (w.bids rx).received = false) : PastBid X w next := by
  have refused : w.perform X (.sendBid rx bid) false = some w := by simp only [World.perform, closed]; rfl
  have step : Step X w (.call .eventLoop (.sendBid rx bid) false) _ := .call blocked refused
  exact .after step rfl (.here ⟨wired.called step, rfl, false, World.setTask_same _ _ _⟩)

theorem past_collector (wired : Wired w) (blocked : w.tasks .eventLoop = .call (.sendBid rx bid) next) {k : Nat}
    (collects : w.handshake.stance k = .joined rx) : PastBid X w next := by
  obtain ⟨rest, collecting⟩ := collecting_of_stance collects
  have step : Step X w (.call (.chat k) (.collectBids rx) (w.bids rx).collected) _ := .call collecting (if_pos rfl)
  have still := (loop_task_kept step (fun _ _ same => by cases same) (fun same => by cases same)).trans blocked
  exact .after step rfl (past_closed (wired.called step) still ((closeBids_received w rx rx).mpr (.inl rfl)))

theorem past_waiter (wired : Wired w) (blocked : w.tasks .eventLoop = .call (.sendBid rx bid) next) {k : Nat}
    {tx : OneshotId} (waits : w.handshake.stance k = .waiting tx) (answered : w.handshake.answers tx = some (some rx)) :
    PastBid X w next := by
  obtain ⟨rest, awaiting⟩ := awaiting_of_stance waits
  have replied : w.publishReplies tx = some (.ok rx) := by
    obtain ⟨result, replied, given⟩ := Option.map_eq_some_iff.mp answered
    cases result with
    | error e => cases given
    | ok other =>
      cases given
      exact replied
  have step : Step X w (.call (.chat k) (.awaitPublish tx) (.ok rx)) _ := .call awaiting (if_pos (.inl replied))
  have still := (loop_task_kept step (fun _ _ same => by cases same) (fun same => by cases same)).trans blocked
  have collects := (seats_called wired.stances step).2
  refine .after step rfl (past_collector (wired.called step) still (k := k) ?_)
  rw [collects, Function.update_self]
  rfl

theorem past_bid (wired : Wired w) (alive : w.loopGone = false)
    (blocked : w.tasks .eventLoop = .call (.sendBid rx bid) next) : PastBid X w next := by
  have subscribed : ∃ r, w.loop.bidSubscribers r = some rx := by
    have task := wired.loopTask
    rw [blocked] at task
    cases task with
    | other sat => exact sat.1
  rcases (wired.handshake alive).attended rx subscribed with closed | ⟨k, collects⟩ | ⟨k, tx, waits, answered⟩ | given
  · exact past_closed wired blocked closed
  · exact past_collector wired blocked collects
  · exact past_waiter wired blocked waits answered
  · simp only [World.handshake, blocked] at given
    cases given

theorem loop_settles (task : Task Unit) : ∀ w : World C, Wired w → w.tasks .eventLoop = task →
    Possible (Step X) (fun label => label.isCall = true)
      (fun v => Wired v ∧ v.settled ∧ v.commands = w.commands) w := by
  induction task with
  | done a => exact fun w wired idle => .here ⟨wired, .inl idle, rfl⟩
  | call op next ih =>
    intro w wired busy
    cases gone : w.loopGone with
    | true => exact .here ⟨wired, .inr gone, rfl⟩
    | false =>
      have onward {v : World C} {answer : Answer op} (wired : Wired v) (queue : v.commands = w.commands)
          (moved : v.tasks .eventLoop = next answer) :
          Possible (Step X) (fun label => label.isCall = true)
            (fun v => Wired v ∧ v.settled ∧ v.commands = w.commands) v := by
        rw [← queue]
        exact ih answer v wired moved
      have direct (answer : Answer op) {w' : World C} (answered : w.perform X op answer = some w')
          (queue : w'.commands = w.commands) : Possible (Step X) (fun label => label.isCall = true)
            (fun v => Wired v ∧ v.settled ∧ v.commands = w.commands) w := by
        have step : Step X w (.call .eventLoop op answer) _ := .call busy answered
        exact .after step rfl (onward (wired.called step) queue (World.setTask_same _ _ _))
      have task := wired.loopTask
      rw [busy] at task
      cases task with
      | publish tx result =>
        cases result with
        | error e => exact direct () rfl rfl
        | ok rx =>
          by_cases absent : w.abandoned tx = true
          · exact direct () (if_pos absent) rfl
          · exact direct () (if_neg absent) rfl
      | infer out result => exact direct () rfl rfl
      | other sat =>
        have may := sat.1
        by_cases panics : op = .panic
        · subst panics
          rw [World.loopGone, busy] at gone
          cases gone
        · by_cases bids : ∃ rx bid, op = .sendBid rx bid
          · obtain ⟨rx, bid, rfl⟩ := bids
            refine (past_bid wired gone busy).bind fun v reached => ?_
            obtain ⟨wired, queue, answer, moved⟩ := reached
            exact onward wired queue moved
          · obtain ⟨answer, w', answered⟩ := loop_call_answered (X := X) may
              (fun rx bid same => bids ⟨rx, bid, same⟩) panics
            refine direct answer answered ?_
            exact (perform_wires (loopMay_unwired may) answered).commands

/-- Steps that bring nothing new from outside: calls, commands already queued, and libp2p giving up on a
    dispatch. -/
def Label.drains : Label → Bool
  | .call _ _ _ => true
  | .command _ _ => true
  | .event (.inferenceFailure _ _) => true
  | _ => false

theorem drains_of_isCall (label : Label) (called : label.isCall = true) : label.drains = true := by
  cases label with
  | call id op answer => rfl
  | _ => cases called

theorem Label.drains_starts {label : Label} (drains : label.drains = true) (k : Nat) :
    label.starts ≠ some (.chat k) := by
  cases label with
  | call id op answer => exact nofun
  | command command swarm => exact nofun
  | event event => exact nofun
  | _ => cases drains

theorem command_step (idle : w.tasks .eventLoop = .done ()) {command : MeshCommand} {rest : List MeshCommand}
    (queued : w.commands = command :: rest) (wired : Wired w) :
    ∃ swarm n, Step X w (.command command swarm) n ∧ n.commands = rest ∧ Wired n := by
  have step : Step X w (.command command ⟨.ok (), .ok (), w.serial, w.serial⟩) _ := .command idle queued rfl rfl
  exact ⟨_, _, step, rfl, wired.step (.command _ _) trivial step⟩

theorem queue_drains (length : Nat) : ∀ w : World C, w.commands.length ≤ length → Wired w →
    Possible (Step X) (fun label => label.drains = true)
      (fun v => Wired v ∧ (v.loopGone = true ∨ v.tasks .eventLoop = .done () ∧ v.commands = [])) w := by
  induction length with
  | zero =>
    intro w short wired
    refine ((loop_settles _ w wired rfl).wider drains_of_isCall).bind fun v reached => ?_
    obtain ⟨wired, idle | gone, queue⟩ := reached
    · exact .here ⟨wired, .inr ⟨idle, queue.trans (List.length_eq_zero_iff.mp (Nat.le_zero.mp short))⟩⟩
    · exact .here ⟨wired, .inl gone⟩
  | succ length ih =>
    intro w short wired
    refine ((loop_settles _ w wired rfl).wider drains_of_isCall).bind fun v reached => ?_
    obtain ⟨wired, idle | gone, queue⟩ := reached
    · cases queued : v.commands with
      | nil => exact .here ⟨wired, .inr ⟨idle, queued⟩⟩
      | cons command rest =>
        obtain ⟨swarm, n, step, left, wired⟩ := command_step (X := X) idle queued wired
        refine .after step rfl (ih n ?_ wired)
        rw [left]
        rw [← queue, queued, List.length_cons] at short
        omega
    · exact .here ⟨wired, .inl gone⟩

variable {k : Nat} {op : Call} {next : Answer op → Task Unit}

theorem follows_of_run {trace : List (World C × Label)} (id : TaskId) (run : Runs X m trace w)
    (unstarted : ∀ step ∈ trace, step.2.starts ≠ some id) : ∃ calls, (m.tasks id).Follows calls (w.tasks id) := by
  refine run.invariant (I := fun w => ∃ calls, (m.tasks id).Follows calls (w.tasks id)) ⟨[], .nil⟩ ?_
  intro x label y member step kept
  obtain ⟨calls, path⟩ := kept
  rcases step_starts step id with ⟨_, ⟨_, same⟩ | ⟨starts, _⟩⟩ | ⟨op, next, answer, _, _, waiting, _, moved⟩
  · exact ⟨calls, same ▸ path⟩
  · exact absurd starts (unstarted _ member)
  · rw [waiting] at path
    rw [moved]
    exact ⟨_, path.snoc answer⟩

/-- The call gets its answer, and may have gone on since. -/
def Advances (X : Externals) (k : Nat) (w : World C) (op : Call) (next : Answer op → Task Unit) : Prop :=
  Possible (Step X) (fun label => label.drains = true)
    (fun v => Wired v ∧ ∃ answer calls, (next answer).Follows calls (v.tasks (.chat k))) w

theorem Advances.now (wired : Wired w) (busy : w.tasks (.chat k) = .call op next) (answer : Answer op) {w' : World C}
    (answered : w.perform X op answer = some w') : Advances X k w op next := by
  have step : Step X w (.call (.chat k) op answer) _ := .call busy answered
  refine .after step rfl (.here ⟨wired.called step, answer, [], ?_⟩)
  rw [World.setTask_same]
  exact .nil

theorem Advances.later {goal : World C → Prop} (busy : w.tasks (.chat k) = .call op next)
    (first : Possible (Step X) (fun label => label.drains = true) (fun v => Wired v ∧ goal v) w)
    (rest : ∀ v, Wired v → goal v → v.tasks (.chat k) = .call op next → Advances X k v op next) :
    Advances X k w op next := by
  obtain ⟨trace, v, run, drains, wired, reached⟩ := first
  obtain ⟨calls, path⟩ := follows_of_run (.chat k) run fun step member => Label.drains_starts (drains step member) k
  rw [busy] at path
  generalize shape : v.tasks (.chat k) = current at path
  cases path with
  | nil =>
    refine Possible.bind ⟨trace, v, run, drains, rfl⟩ fun v' same => ?_
    exact same ▸ rest v wired reached shape
  | cons onward =>
    subst shape
    exact ⟨trace, v, run, drains, wired, _, _, onward⟩

theorem send_advances {command : MeshCommand} {next : Bool → Task Unit} (wired : Wired w)
    (busy : w.tasks (.chat k) = .call (.sendCommand command) next) : Advances X k w (.sendCommand command) next := by
  have ready (v : World C) (wired : Wired v) (room : v.loopGone = true ∨ v.commands.length < commandCapacity)
      (busy : v.tasks (.chat k) = .call (.sendCommand command) next) : Advances X k v (.sendCommand command) next := by
    cases gone : v.loopGone with
    | true => exact .now wired busy false (if_pos gone)
    | false =>
      refine .now wired busy true (if_pos ⟨?_, room.resolve_left (by rw [gone]; nofun)⟩)
      rw [gone]
      rfl
  refine .later busy (queue_drains _ w (Nat.le_refl _) wired) fun v wired drained busy => ready v wired ?_ busy
  rcases drained with gone | ⟨_, empty⟩
  · exact .inl gone
  · rw [empty]
    exact .inr (by decide)

theorem publish_advances {tx : OneshotId} {next : Except String BidChannelId → Task Unit} (wired : Wired w)
    (busy : w.tasks (.chat k) = .call (.awaitPublish tx) next) : Advances X k w (.awaitPublish tx) next := by
  refine .later busy (queue_drains _ w (Nat.le_refl _) wired) fun v wired drained busy => ?_
  cases replied : v.publishReplies tx with
  | some result => exact .now wired busy _ (if_pos (.inl replied))
  | none =>
    cases gone : v.loopGone with
    | true => exact .now wired busy _ (if_pos (.inr ⟨gone, replied, rfl⟩))
    | false =>
      obtain ⟨idle, empty⟩ := drained.resolve_left (by rw [gone]; nofun)
      have waits : v.handshake.stance k = .waiting tx := by
        simp only [World.handshake, World.stance, busy]
        rfl
      have nothing : v.handshake.transit = [] := by
        simp only [World.handshake, idle, empty]
        rfl
      rcases (wired.handshake gone).waiting k tx waits with transit | answered
      · rw [nothing] at transit
        cases transit
      · exact absurd (congrArg (Option.map Except.toOption) replied) answered

theorem result_advances {out : OneshotId} {next : Except String InferenceReply → Task Unit} (wired : Wired w)
    (busy : w.tasks (.chat k) = .call (.awaitInference out) next) : Advances X k w (.awaitInference out) next := by
  have ready (v : World C) (wired : Wired v) (replied : v.inferenceReplies out ≠ none)
      (busy : v.tasks (.chat k) = .call (.awaitInference out) next) : Advances X k v (.awaitInference out) next := by
    obtain ⟨result, found⟩ := Option.ne_none_iff_exists'.mp replied
    exact .now wired busy _ (if_pos (.inl found))
  refine .later busy (queue_drains _ w (Nat.le_refl _) wired) fun v wired drained busy => ?_
  by_cases replied : v.inferenceReplies out = none
  · cases gone : v.loopGone with
    | true => exact .now wired busy _ (if_pos (.inr ⟨gone, replied, rfl⟩))
    | false =>
      obtain ⟨idle, empty⟩ := drained.resolve_left (by rw [gone]; nofun)
      have waits : v.stance k = .result out := by
        simp only [World.stance, busy]
        rfl
      rcases wired.outstanding gone k out waits with ⟨_, _, queued⟩ | ⟨outId, pending⟩ | ⟨_, replies⟩ | already
      · rw [empty] at queued
        cases queued
      · -- libp2p reports an outcome for every request it was given
        have fails : Step X v (.event (.inferenceFailure outId "timeout")) _ := .event idle
        have replies := settled_replies fails rfl pending
        have answers : Step X _ (.call .eventLoop (.replyInference out _) ()) _ := .call replies rfl
        have wired' := (wired.step (.event _) trivial fails).called answers
        refine .later busy (.after fails rfl (.after answers rfl (.here ⟨wired', ?_⟩))) ready
        simp [World.setTask]
      · rw [idle] at replies
        cases replies
      · exact absurd replied already
  · exact ready v wired replied busy

theorem chat_advances (wired : Wired w) (busy : w.tasks (.chat k) = .call op next) : Advances X k w op next := by
  have performs : (TaskId.chat k).performs op := by
    have sat := wired.calls (.chat k)
    rw [busy] at sat
    exact sat.1
  cases op with
  | newUuid => exact .now wired busy ⟨Vector.replicate 16 0⟩ rfl
  | now => exact .now wired busy (0 : UInt64) rfl
  | randomSessionKey => exact .now wired busy "" rfl
  | selectSessionCache session => exact .now wired busy (.error "") rfl
  | newOneshot request => exact .now wired busy _ (if_pos rfl)
  | sendCommand command => exact send_advances wired busy
  | awaitPublish tx => exact publish_advances wired busy
  | collectBids rx => exact .now wired busy _ (if_pos rfl)
  | awaitInference out => exact result_advances wired busy
  | httpResponse result => exact .now wired busy () rfl
  | _ => cases performs

theorem chat_returns (task : Task Unit) : ∀ w : World C, Wired w →
    (∃ calls, task.Follows calls (w.tasks (.chat k))) →
    Possible (Step X) (fun label => label.drains = true) (fun v => Wired v ∧ v.tasks (.chat k) = .done ()) w := by
  induction task with
  | done a =>
    intro w wired path
    obtain ⟨calls, path⟩ := path
    generalize shape : w.tasks (.chat k) = current at path
    cases path with
    | nil => exact .here ⟨wired, shape⟩
  | call op next ih =>
    intro w wired path
    obtain ⟨calls, path⟩ := path
    generalize shape : w.tasks (.chat k) = current at path
    cases path with
    | nil =>
      refine (chat_advances wired shape).bind fun v reached => ?_
      obtain ⟨wired, answer, calls, onward⟩ := reached
      exact ih answer v wired ⟨calls, onward⟩
    | cons onward => exact ih _ w wired ⟨_, shape ▸ onward⟩

theorem chats_return (ks : List Nat) : ∀ w : World C, Wired w → (∀ k, k ∉ ks → w.tasks (.chat k) = .done ()) →
    Possible (Step X) (fun label => label.drains = true) (fun v => Wired v ∧ ∀ k, v.tasks (.chat k) = .done ()) w := by
  induction ks with
  | nil => exact fun w wired rest => .here ⟨wired, fun k => rest k List.not_mem_nil⟩
  | cons first ks ih =>
    intro w wired rest
    obtain ⟨trace, v, run, drains, wired, done⟩ := chat_returns (X := X) (k := first) _ w wired ⟨[], .nil⟩
    refine Possible.bind ⟨trace, v, run, drains, rfl⟩ fun v' same => ?_
    subst same
    refine ih v wired fun k outside => ?_
    by_cases own : k = first
    · rw [own, done]
    · refine unstarted_idle run (rest k ?_) fun step member => Label.drains_starts (drains step member) k
      exact fun member => (List.mem_cons.mp member).elim own outside

theorem unasked_idle {start : World C} {trace : List (World C × Label)} (run : Runs X start trace w)
    (idle : start.tasks (.chat k) = .done ()) (unasked : ∀ step ∈ trace, ∀ req, step.2 ≠ .request k req) :
    w.tasks (.chat k) = .done () := by
  refine run.invariant (I := fun w => w.tasks (.chat k) = .done ()) idle ?_
  intro x label y member step kept
  rcases step_starts step (.chat k) with ⟨_, ⟨_, same⟩ | ⟨_, begun⟩⟩ | ⟨_, _, _, _, _, waiting, _⟩
  · rw [same, kept]
  · generalize y.tasks (.chat k) = task at begun
    cases begun with
    | serve k req => exact absurd rfl (unasked _ member req)
    | drop k => rfl
  · rw [kept] at waiting
    cases waiting

section Runs

variable (X : Externals) (key : C.SigningKey) (pgPool settlementTx : Bool) (archive : ReceiptArchive) (ttl : UInt64)

theorem wired_reachable {w : World C} {trace : List (World C × Label)}
    (run : Runs X (World.start (EventLoop.new key pgPool settlementTx) archive ttl) trace w)
    (handle : ∀ step ∈ trace, step.2.handleOnly) : Wired w :=
  wired_run run (wired_start _ _ _ (fun _ => rfl) fun _ => rfl) handle

/-- The event loop is never stuck: it waits for room in a bid channel only while a call is there to drain
    or drop it, so calls alone bring it back to its `select!`, whatever is in its command queue. -/
theorem event_loop_never_stuck (w : World C) (trace : List (World C × Label))
    (run : Runs X (World.start (EventLoop.new key pgPool settlementTx) archive ttl) trace w)
    (handle : ∀ step ∈ trace, step.2.handleOnly) :
    ∃ later w', Runs X w later w' ∧ (∀ step ∈ later, step.2.isCall = true) ∧ w'.commands = w.commands ∧
      (w'.tasks .eventLoop = .done () ∨ w'.loopGone = true) := by
  have wired := wired_reachable X key pgPool settlementTx archive ttl run handle
  obtain ⟨later, w', onward, calls, _, settled, queue⟩ := loop_settles (X := X) _ w wired rfl
  exact ⟨later, w', onward, calls, queue, settled⟩

/-- What a call waits for is on its way to it: its publish command is queued, about to be answered or answered,
    and so is its dispatch, which may also be with libp2p. -/
structure World.CallsWired (w : World C) : Prop where
  publish : ∀ k tx next, w.tasks (.chat k) = .call (.awaitPublish tx) next →
    (∃ request, MeshCommand.publish request tx ∈ w.commands) ∨
      (∃ result next, w.tasks .eventLoop = .call (.replyPublish tx result) next) ∨ w.publishReplies tx ≠ none
  result : ∀ k out next, w.tasks (.chat k) = .call (.awaitInference out) next → Outstanding w out

theorem replying_eq_some {task : Task Unit} {tx : OneshotId} {given : Option BidChannelId}
    (replies : replying task = some (tx, given)) : ∃ result next, task = .call (.replyPublish tx result) next := by
  cases task with
  | done a => cases replies
  | call op next =>
    cases op with
    | replyPublish tx result =>
      cases replies
      exact ⟨result, next, rfl⟩
    | _ => cases replies

theorem Wired.callsWired (wired : Wired w) (alive : w.loopGone = false) : w.CallsWired := by
  constructor
  · intro k tx next waits
    have seat : w.handshake.stance k = .waiting tx := by
      simp only [World.handshake, World.stance, waits]
      rfl
    rcases (wired.handshake alive).waiting k tx seat with transit | answered
    · rcases List.mem_append.mp transit with replies | queued
      · obtain ⟨⟨tx', given⟩, found, same⟩ := Option.map_eq_some_iff.mp (Option.mem_toList.mp replies)
        change tx' = tx at same
        subst same
        exact .inr (.inl (replying_eq_some found))
      · obtain ⟨command, member, own⟩ := List.mem_filterMap.mp queued
        cases command with
        | publish request tx =>
          cases own
          exact .inl ⟨request, member⟩
        | _ => cases own
    · refine .inr (.inr fun none => answered ?_)
      change (w.publishReplies tx).map Except.toOption = _
      rw [none]
      rfl
  · intro k out next waits
    apply wired.outstanding alive k
    rw [World.stance, waits]
    rfl

def Label.asks : Label → Option Nat
  | .request k _ => some k
  | _ => none

/-- No `chat_completions` call is left waiting for the coordinator: in every reachable state, while the event loop
    lives, what a call waits for is on its way; and with no new request, no client going away and no message
    from a node, every open call can still return. -/
theorem calls_never_stuck (w : World C) (trace : List (World C × Label))
    (run : Runs X (World.start (EventLoop.new key pgPool settlementTx) archive ttl) trace w)
    (handle : ∀ step ∈ trace, step.2.handleOnly) :
    (w.loopGone = false → w.CallsWired) ∧
      ∃ later w', Runs X w later w' ∧ (∀ step ∈ later, step.2.drains = true) ∧ ∀ k, w'.tasks (.chat k) = .done () := by
  have wired := wired_reachable X key pgPool settlementTx archive ttl run handle
  have idle (k : Nat) (outside : k ∉ trace.filterMap fun step => step.2.asks) : w.tasks (.chat k) = .done () := by
    refine unasked_idle run rfl fun step member req same => outside (List.mem_filterMap.mpr ⟨step, member, ?_⟩)
    rw [same]
    rfl
  obtain ⟨later, w', onward, drains, _, returned⟩ := chats_return (X := X) _ w wired idle
  exact ⟨wired.callsWired, later, w', onward, drains, returned⟩

end Runs

theorem reach_offered (X : Externals) (key : C.SigningKey) (bid : InferenceBid) (message : GossipMessage)
    (topic : message.topic = Topics.bids) (parsed : X.bidFromSlice message.data = some bid) :
    ∃ trace w, Runs X (World.start (EventLoop.new key false false) (.inMemory fun _ => none) 60000) trace w ∧
      (∀ step ∈ trace, step.2.handleOnly) ∧ (∃ next, w.tasks .eventLoop = .call (.sendBid ⟨bid.requestId, 1⟩ bid) next) ∧
      ∃ next, w.tasks (.chat 0) = .call (.collectBids ⟨bid.requestId, 1⟩) next := by
  obtain ⟨trace, w, run, calm, _, _, idle, _, _, _, subscribed, _, _, collecting⟩ :=
    reach_auction X key (.inMemory fun _ => none) sampleChat bid.requestId ⟨_, rfl, _, rfl, _, rfl, _, rfl, rfl⟩
  have arrives : Step X w (.event (.gossip ⟨"12D3KooWRelay"⟩ message 1700000000000)) _ := .event idle
  have offers : (w.loop.handleEvent X (.gossip ⟨"12D3KooWRelay"⟩ message 1700000000000)).2 =
      .call (.sendBid ⟨bid.requestId, 1⟩ bid) fun _ => .done () := by
    simp only [EventLoop.handleEvent, EventLoop.handleGossipMessage, topic, parsed, subscribed]
    rfl
  have apart : TaskId.chat 0 ≠ .eventLoop := by
    intro same
    cases same
  refine ⟨_, _, .snoc run arrives, ?_, ⟨_, (World.setTask_same _ _ _).trans offers⟩, _,
    (World.setTask_other apart _).trans collecting⟩
  intro step member
  rcases List.mem_append.mp member with earlier | last
  · exact (calm step earlier).2
  · rw [List.mem_singleton.mp last]
    exact trivial

theorem offered_bid_not_stuck :
    let C := Primitives.marking []
    let X := Externals.serde readSampleBid fun text => .ok ⟨text⟩
    ∃ (w : World C) (later : List (World C × Label)) (w' : World C),
      (∃ rx bid next, w.tasks .eventLoop = .call (.sendBid rx bid) next) ∧ Runs X w later w' ∧
      (∀ step ∈ later, step.2.isCall = true) ∧ w'.commands = w.commands ∧
      (w'.tasks .eventLoop = .done () ∨ w'.loopGone = true) := by
  intro C X
  obtain ⟨trace, w, run, handle, ⟨next, offering⟩, _⟩ := reach_offered X (C := C) (Vector.replicate 32 0) sampleBid
    (bidMessage "12D3KooWPeerNode1") rfl (if_pos rfl)
  obtain ⟨later, w', onward, calls, queue, settled⟩ := event_loop_never_stuck X _ false false _ _ w trace run handle
  exact ⟨w, later, w', ⟨_, _, next, offering⟩, onward, calls, queue, settled⟩

theorem collecting_call_not_stuck :
    let C := Primitives.marking []
    let X := Externals.serde readSampleBid fun text => .ok ⟨text⟩
    ∃ (w : World C) (later : List (World C × Label)) (w' : World C),
      (∃ rx next, w.tasks (.chat 0) = .call (.collectBids rx) next) ∧ Runs X w later w' ∧
      (∀ step ∈ later, step.2.drains = true) ∧ ∀ k, w'.tasks (.chat k) = .done () := by
  intro C X
  obtain ⟨trace, w, run, handle, _, next, collecting⟩ := reach_offered X (C := C) (Vector.replicate 32 0) sampleBid
    (bidMessage "12D3KooWPeerNode1") rfl (if_pos rfl)
  obtain ⟨_, later, w', onward, drains, returned⟩ := calls_never_stuck X _ false false _ _ w trace run handle
  exact ⟨w, later, w', ⟨_, next, collecting⟩, onward, drains, returned⟩

end Coordinator
