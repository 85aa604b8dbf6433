import Pinaivu.Async.Handshake
import Pinaivu.Coordinator.CrossTalk
import Pinaivu.Coordinator.NoTrace
import Pinaivu.Coordinator.Stances

namespace Coordinator

open Protocol Crypto Async

variable {C : Primitives} {X : Externals} {w m n : World C} {label : Label}

def ChatStance.seat : ChatStance → Stance OneshotId BidChannelId
  | .holding tx => .holding tx
  | .reply tx => .waiting tx
  | .bids rx => .joined rx
  | _ => .free

def MeshCommand.publishesOn : MeshCommand → Option OneshotId
  | .publish _ tx => some tx
  | _ => none

def replying : Task Unit → Option (OneshotId × Option BidChannelId)
  | .call (.replyPublish tx result) _ => some (tx, result.toOption)
  | _ => none

/-- The auctions as a handshake: a call hands in the channel of its publish command and is answered with
    a bid channel. -/
def World.handshake (w : World C) : Handshake Nat OneshotId BidChannelId where
  stance k := (w.stance k).seat
  drawn tx := tx.serial < w.serial
  transit := ((replying (w.tasks .eventLoop)).map Prod.fst).toList ++ w.commands.filterMap MeshCommand.publishesOn
  given := (replying (w.tasks .eventLoop)).bind Prod.snd
  answers tx := (w.publishReplies tx).map Except.toOption
  abandoned := w.abandoned
  opened rx := ∃ r, w.loop.bidSubscribers r = some rx
  closed rx := (w.bids rx).received = false

theorem seats_called {k : Nat} {op : Call} {answer : Answer op} (kept : m.StancesKept)
    (step : Step X m (.call (.chat k) op answer) n) :
    m.handshake.stance k = op.stance.seat ∧
      n.handshake.stance = Function.update m.handshake.stance k (ChatStance.after op answer).seat := by
  constructor
  · rcases (stance_step kept step k).2 with ⟨calls, _⟩ | ⟨starts, _⟩ | ⟨op', answer', shape, stance, _⟩
    · exact absurd rfl (calls op answer)
    · cases starts
    · cases shape
      exact congrArg ChatStance.seat stance
  · ext j
    by_cases own : j = k
    · subst own
      rw [Function.update_self]
      rcases (stance_step kept step j).2 with ⟨calls, _⟩ | ⟨starts, _⟩ | ⟨op', answer', shape, _, next⟩
      · exact absurd rfl (calls op answer)
      · cases starts
      · cases shape
        exact congrArg ChatStance.seat next
    · rw [Function.update_of_ne own]
      rcases (stance_step kept step j).2 with ⟨_, _, same⟩ | ⟨starts, _⟩ | ⟨op', answer', shape, _⟩
      · exact congrArg ChatStance.seat same
      · cases starts
      · cases shape
        exact absurd rfl own

theorem seats_kept (kept : m.StancesKept) (step : Step X m label n)
    (calls : ∀ k op answer, label ≠ .call (.chat k) op answer) (starts : ∀ k, label.starts ≠ some (.chat k)) :
    n.handshake.stance = m.handshake.stance := by
  ext k
  rcases (stance_step kept step k).2 with ⟨_, _, same⟩ | ⟨begins, _⟩ | ⟨op, answer, shape, _⟩
  · exact congrArg ChatStance.seat same
  · exact absurd begins (starts k)
  · exact absurd shape (calls k op answer)

theorem seats_started {k : Nat} (kept : m.StancesKept) (step : Step X m label n)
    (starts : label.starts = some (.chat k)) :
    n.handshake.stance = Function.update m.handshake.stance k .free := by
  ext j
  rcases (stance_step kept step j).2 with ⟨_, others, same⟩ | ⟨begins, free⟩ | ⟨op, answer, rfl, _⟩
  · have apart : j ≠ k := by
      intro same
      subst same
      exact others starts
    rw [Function.update_of_ne apart]
    exact congrArg ChatStance.seat same
  · rw [starts, Option.some.injEq, TaskId.chat.injEq] at begins
    subst begins
    rw [Function.update_self]
    exact congrArg ChatStance.seat free
  · cases starts

theorem loop_task_kept (step : Step X m label n) (calls : ∀ op answer, label ≠ .call .eventLoop op answer)
    (starts : label.starts ≠ some .eventLoop) : n.tasks .eventLoop = m.tasks .eventLoop := by
  rcases step_starts step .eventLoop with ⟨_, ⟨_, same⟩ | ⟨begins, _⟩⟩ | ⟨op, _, answer, _, shape, _⟩
  · exact same
  · exact absurd begins starts
  · exact absurd shape (calls op answer)

def Call.wires : Call → Bool
  | .newOneshot _ => true
  | .sendCommand _ => true
  | .replyPublish _ _ => true
  | .collectBids _ => true
  | _ => false

structure SameWires (m n : World C) : Prop where
  serial : n.serial = m.serial
  loop : n.loop = m.loop
  commands : n.commands = m.commands
  replies : n.publishReplies = m.publishReplies
  abandoned : n.abandoned = m.abandoned
  received : ∀ rx, (n.bids rx).received = (m.bids rx).received

theorem SameWires.refl (m : World C) : SameWires m m := ⟨rfl, rfl, rfl, rfl, rfl, fun _ => rfl⟩

theorem SameWires.setTask (same : SameWires m n) (id : TaskId) (task : Task Unit) :
    SameWires m (n.setTask id task) := ⟨same.1, same.2, same.3, same.4, same.5, same.6⟩

theorem perform_wires {op : Call} {answer : Answer op} (still : op.wires = false)
    (answered : m.perform X op answer = some n) : SameWires m n := by
  cases performed answered with
  | bid tx bid received =>
    refine { SameWires.refl m with received := fun rx => ?_ }
    by_cases same : rx = tx
    · subst same
      simp only [Function.update_self]
    · simp only [Function.update_of_ne same]
  | collected rx => cases still
  | oneshot request => cases still
  | sent command alive => cases still
  | dropped tx rx away => cases still
  | published tx result => cases still
  | _ => exact { SameWires.refl m with }

theorem SameWires.ages (same : SameWires m n) (stance : n.handshake.stance = m.handshake.stance)
    (reply : replying (n.tasks .eventLoop) = replying (m.tasks .eventLoop)) :
    Handshake.Ages m.handshake n.handshake where
  stance := stance
  drawn tx drawn := by simpa only [World.handshake, same.serial] using drawn
  transit := by simp only [World.handshake, reply, same.commands]
  given := by simp only [World.handshake, reply]
  answers := by simp only [World.handshake, same.replies]
  abandoned := same.abandoned
  opened rx opened := by simpa only [World.handshake, same.loop] using opened
  closed rx closed := (same.received rx).trans closed

theorem not_replying (guarantee : Call → Prop) {task : Task Unit}
    (sat : task.Sat guarantee (fun _ _ => True) fun _ => True) (never : ∀ tx result, ¬ guarantee (.replyPublish tx result)) :
    replying task = none := by
  cases task with
  | done a => rfl
  | call op next =>
    cases op with
    | replyPublish tx result => exact absurd sat.1 (never tx result)
    | _ => rfl

theorem closeBids_received (w : World C) (closed rx : BidChannelId) :
    ((w.closeBids closed).bids rx).received = false ↔ rx = closed ∨ (w.bids rx).received = false := by
  by_cases same : rx = closed
  · subst same
    simp [World.closeBids]
  · simp [World.closeBids, same]

theorem chat_call_moves {k : Nat} {op : Call} {answer : Answer op} (kept : m.StancesKept)
    (performs : (TaskId.chat k).performs op) (step : Step X m (.call (.chat k) op answer) n)
    (alive : n.loopGone = false) : Handshake.Step m.handshake n.handshake := by
  obtain ⟨seat, seats⟩ := seats_called kept step
  have loop : n.tasks .eventLoop = m.tasks .eventLoop :=
    loop_task_kept step (fun _ _ same => by cases same) (fun same => by cases same)
  have gone : m.loopGone = false := by rw [World.loopGone, ← loop]; exact alive
  have given : n.handshake.given = m.handshake.given := by simp only [World.handshake, loop]
  have queued (more : List OneshotId) (commands : n.commands.filterMap MeshCommand.publishesOn =
      m.commands.filterMap MeshCommand.publishesOn ++ more) : n.handshake.transit = m.handshake.transit ++ more := by
    simp only [World.handshake, loop, commands, List.append_assoc]
  have transit (commands : n.commands.filterMap MeshCommand.publishesOn =
      m.commands.filterMap MeshCommand.publishesOn) : n.handshake.transit = m.handshake.transit := by
    rw [queued [] (commands.trans (List.append_nil _).symm), List.append_nil]
  have stays (before : op.stance.seat = .free) (after : (ChatStance.after op answer).seat = .free) :
      n.handshake.stance = m.handshake.stance := by
    rw [seats, after, ← before, ← seat, Function.update_eq_self]
  have still (unwired : op.wires = false) (before : op.stance.seat = .free)
      (after : (ChatStance.after op answer).seat = .free) : Handshake.Step m.handshake n.handshake := by
    have same := stays before after
    cases step with
    | call waiting answered =>
      exact (((perform_wires unwired answered).setTask _ _).ages same (congrArg replying loop)).step
  cases op with
  | newUuid => exact still rfl rfl rfl
  | now => exact still rfl rfl rfl
  | randomSessionKey => exact still rfl rfl rfl
  | selectSessionCache session => exact still rfl rfl rfl
  | httpResponse result => exact still rfl rfl rfl
  | awaitInference out => exact still rfl rfl rfl
  | newOneshot request =>
    have fresh : ¬ m.handshake.drawn answer := by
      rw [(oneshot_serial step).1]
      exact Nat.lt_irrefl _
    cases step with
    | call waiting answered =>
      cases performed answered with
      | silent quiet => cases quiet
      | oneshot request =>
        refine ⟨_, .draw seat fresh, seats, fun tx drawn => ?_, transit rfl, given, rfl, rfl, fun _ opened => opened,
          fun _ closed => closed⟩
        rcases drawn with rfl | drawn
        · exact Nat.lt_succ_self _
        · exact Nat.lt_succ_of_lt drawn
  | sendCommand command =>
    cases step with
    | call waiting answered =>
      cases performed answered with
      | silent quiet => cases quiet
      | unsent _ panicked =>
        rw [gone] at panicked
        cases panicked
      | sent _ _ =>
        have unqueued (silent : command.publishesOn = none) := transit (by
          simp [World.setTask, List.filterMap_append, silent])
        cases command with
        | publish request tx =>
          refine ⟨_, .hand seat, seats, fun _ drawn => drawn, ?_, given, rfl, rfl, fun _ opened => opened,
            fun _ closed => closed⟩
          apply queued [tx]
          simp [World.setTask, List.filterMap_append, MeshCommand.publishesOn]
        | dispatchInference peer dispatch out =>
          exact ⟨_, .discard seat, seats, fun _ drawn => drawn, unqueued rfl, given, rfl, rfl,
            fun _ opened => opened, fun _ closed => closed⟩
        | _ =>
          exact ⟨_, .rest, stays rfl rfl, fun _ drawn => drawn, unqueued rfl, given, rfl, rfl,
            fun _ opened => opened, fun _ closed => closed⟩
  | awaitPublish tx =>
    cases step with
    | call waiting answered =>
      cases performed answered with
      | silent quiet => cases quiet
      | outcome _ _ ready =>
        have replied : m.publishReplies tx = some answer := by
          rcases ready with replied | ⟨panicked, _⟩
          · exact replied
          · rw [gone] at panicked
            cases panicked
        have answers : m.handshake.answers tx = some answer.toOption := congrArg (Option.map Except.toOption) replied
        cases answer with
        | ok rx =>
          exact ⟨_, .join seat answers, seats, fun _ drawn => drawn, transit rfl, given, rfl, rfl,
            fun _ opened => opened, fun _ closed => closed⟩
        | error e =>
          exact ⟨_, .refuse seat answers, seats, fun _ drawn => drawn, transit rfl, given, rfl, rfl,
            fun _ opened => opened, fun _ closed => closed⟩
  | collectBids rx =>
    cases step with
    | call waiting answered =>
      cases performed answered with
      | silent quiet => cases quiet
      | collected rx =>
        exact ⟨_, .leave seat, seats, fun _ drawn => drawn, transit rfl, given, rfl, rfl, fun _ opened => opened,
          fun other closed => (closeBids_received m rx other).mpr closed⟩
  | _ => cases performs

theorem loopMay_unwired {loop : EventLoop C} {op : Call} (may : loopMay loop op) : op.wires = false := by
  cases op <;> first | rfl | cases may

theorem reply_moves {tx : OneshotId} {result : Except String BidChannelId} (kept : m.StancesKept)
    (replies : m.tasks .eventLoop = call (.replyPublish tx result))
    (step : Step X m (.call .eventLoop (.replyPublish tx result) ()) n) :
    Handshake.Step m.handshake n.handshake := by
  have seats := seats_kept kept step (fun _ _ _ same => by cases same) (fun _ same => by cases same)
  have first : m.handshake.transit = tx :: m.commands.filterMap MeshCommand.publishesOn := by
    simp only [World.handshake, replies]
    rfl
  have gives : m.handshake.given = result.toOption := by
    simp only [World.handshake, replies]
    rfl
  cases step with
  | @call w'' _ _ next _ waiting answered =>
    have ended : next () = .done () := by
      rw [replies] at waiting
      cases waiting
      rfl
    have silent : (w''.setTask .eventLoop (next ())).tasks .eventLoop = .done () := by rw [World.setTask_same, ended]
    have given : (w''.setTask .eventLoop (next ())).handshake.given = none := by simp only [World.handshake, silent]; rfl
    have transit (commands : w''.commands = m.commands) : (w''.setTask .eventLoop (next ())).handshake.transit =
        m.commands.filterMap MeshCommand.publishesOn := by
      have queue : (w''.setTask .eventLoop (next ())).commands = m.commands := commands
      simp only [World.handshake, silent, queue]
      rfl
    have answers (replied : w''.publishReplies = Function.update m.publishReplies tx (some result)) :
        (w''.setTask .eventLoop (next ())).handshake.answers =
          Function.update m.handshake.answers tx (some m.handshake.given) := by
      rw [gives]
      ext other
      by_cases same : other = tx
      · subst same
        simp [World.handshake, World.setTask, replied]
      · simp [World.handshake, World.setTask, replied, same]
    cases result with
    | error e =>
      cases answered
      exact ⟨_, .answer first (.inr gives), seats, fun _ drawn => drawn, transit rfl, given, answers rfl, rfl,
        fun _ opened => opened, fun _ closed => closed⟩
    | ok rx =>
      simp only [World.perform] at answered
      split at answered
      · rename_i absent
        cases answered
        exact ⟨_, .lose first gives absent, seats, fun _ drawn => drawn, transit rfl, given, rfl, rfl,
          fun _ opened => opened, fun other closed => (closeBids_received m rx other).mpr closed⟩
      · rename_i present
        cases answered
        exact ⟨_, .answer first (.inl (Bool.eq_false_of_not_eq_true present)), seats, fun _ drawn => drawn, transit rfl,
          given, answers rfl, rfl, fun _ opened => opened, fun _ closed => closed⟩

theorem loop_call_moves {op : Call} {answer : Answer op} (kept : m.StancesKept)
    (task : LoopTask m.loop (m.tasks .eventLoop)) (step : Step X m (.call .eventLoop op answer) n) :
    Handshake.Step m.handshake n.handshake := by
  have seats := seats_kept kept step (fun _ _ _ same => by cases same) (fun _ same => by cases same)
  have still (unwired : op.wires = false) (before : replying (m.tasks .eventLoop) = none)
      (after : replying (n.tasks .eventLoop) = none) : Handshake.Step m.handshake n.handshake := by
    cases step with
    | call waiting answered =>
      exact (((perform_wires unwired answered).setTask _ _).ages seats (after.trans before.symm)).step
  generalize shape : m.tasks .eventLoop = current at task still
  cases task with
  | publish tx result =>
    have same : op = .replyPublish tx result := by
      cases step with
      | call waiting answered =>
        rw [shape] at waiting
        cases waiting
        rfl
    subst same
    exact reply_moves kept shape step
  | infer out result =>
    have same : op = .replyInference out result ∧ n.tasks .eventLoop = .done () := by
      cases step with
      | call waiting answered =>
        rw [shape] at waiting
        cases waiting
        exact ⟨rfl, World.setTask_same _ _ _⟩
    obtain ⟨rfl, ended⟩ := same
    exact still rfl rfl (by rw [ended]; rfl)
  | other sat =>
    have rest : loopMay m.loop op ∧ (n.tasks .eventLoop).Sat (loopMay m.loop) (fun _ _ => True) fun _ => True := by
      cases step with
      | call waiting answered =>
        rw [shape] at waiting
        rw [World.setTask_same]
        exact (sat.step waiting answer).imp_right fun rest => rest trivial
    exact still (loopMay_unwired rest.1) (not_replying _ sat nofun) (not_replying _ rest.2 nofun)

theorem cancel_moves {k : Nat} (kept : m.StancesKept) (step : Step X m (.cancel k) n) :
    Handshake.Step m.handshake n.handshake := by
  have seats := seats_started kept step rfl
  have loop : n.tasks .eventLoop = m.tasks .eventLoop :=
    loop_task_kept step (fun _ _ same => by cases same) (fun same => by cases same)
  have dropped : n = m.dropChat k := by
    cases step
    rfl
  have given : n.handshake.given = m.handshake.given := by simp only [World.handshake, loop]
  have transit : n.handshake.transit = m.handshake.transit := by
    have queue : n.commands = m.commands := by rw [dropped, (dropChat_keeps m k).2.1]
    simp only [World.handshake, loop, queue]
  -- whoever is free of tickets and channels holds nothing that is dropped with it
  have still (idle : m.handshake.stance k = .free) (same : n = m.setTask (.chat k) (.done ())) :
      Handshake.Step m.handshake n.handshake := by
    rw [← idle, Function.update_eq_self] at seats
    subst same
    exact (((SameWires.refl m).setTask _ _).ages seats (congrArg replying loop)).step
  have discards {tx : OneshotId} (holds : m.handshake.stance k = .holding tx)
      (same : n = m.setTask (.chat k) (.done ())) : Handshake.Step m.handshake n.handshake := by
    subst same
    exact ⟨_, .discard holds, seats, fun _ drawn => drawn, transit, given, rfl, rfl, fun _ opened => opened,
      fun _ closed => closed⟩
  cases shape : m.tasks (.chat k) with
  | done a =>
    refine still ?_ (by rw [dropped, World.dropChat, shape])
    simp only [World.handshake, World.stance, shape]
    rfl
  | call op next =>
    have stance : m.handshake.stance k = op.stance.seat := by
      simp only [World.handshake, World.stance, shape]
      rfl
    cases op with
    | collectBids rx =>
      have same : n = (m.closeBids rx).setTask (.chat k) (.done ()) := by rw [dropped, World.dropChat, shape]
      subst same
      exact ⟨_, .leave stance, seats, fun _ drawn => drawn, transit, given, rfl, rfl, fun _ opened => opened,
        fun other closed => (closeBids_received m rx other).mpr closed⟩
    | awaitPublish tx =>
      by_cases joined : ∃ rx, m.publishReplies tx = some (.ok rx)
      · obtain ⟨rx, replied⟩ := joined
        have same : n = (m.closeBids rx).setTask (.chat k) (.done ()) := by
          rw [dropped, World.dropChat, shape]
          simp only [replied]
        subst same
        have answered : m.handshake.answers tx = some (some rx) := congrArg (Option.map Except.toOption) replied
        exact ⟨_, .forsake stance answered, seats, fun _ drawn => drawn, transit, given, rfl, rfl,
          fun _ opened => opened, fun other closed => (closeBids_received m rx other).mpr closed⟩
      · have same : n = { m with abandoned := Function.update m.abandoned tx true }.setTask (.chat k) (.done ()) := by
          rw [dropped, World.dropChat, shape]
          dsimp only
          split
          · rename_i rx replied
            exact absurd ⟨rx, replied⟩ joined
          · rfl
        subst same
        have unanswered : ∀ rx, m.handshake.answers tx ≠ some (some rx) := by
          intro rx answered
          apply joined
          obtain ⟨result, replied, given⟩ := Option.map_eq_some_iff.mp answered
          cases result with
          | error e => cases given
          | ok bids =>
            cases given
            exact ⟨rx, replied⟩
        exact ⟨_, .abandon stance unanswered, seats, fun _ drawn => drawn, transit, given, rfl, rfl,
          fun _ opened => opened, fun _ closed => closed⟩
    | sendCommand command =>
      have same : n = m.setTask (.chat k) (.done ()) := by rw [dropped, World.dropChat, shape]
      cases command with
      | publish request tx => exact discards stance same
      | dispatchInference peer dispatch out => exact discards stance same
      | _ => exact still stance same
    | _ => exact still stance (by rw [dropped, World.dropChat, shape])

theorem handleCommand_unsubscribed (loop : EventLoop C) {command : MeshCommand} (swarm : SwarmAnswers)
    (other : command.publishesOn = none) :
    (loop.handleCommand command swarm).1.bidSubscribers = loop.bidSubscribers ∧
      replying (loop.handleCommand command swarm).2 = none := by
  cases command with
  | publish request tx => cases other
  | setPayoutAddresses requestId addresses =>
    simp only [EventLoop.handleCommand]
    split <;> exact ⟨rfl, rfl⟩
  | _ => exact ⟨rfl, rfl⟩

theorem publishRequest_opens (loop : EventLoop C) (request : InferenceRequest) (swarm : SwarmAnswers) :
    ∀ rx, (∃ r, (loop.publishRequest request swarm).1.bidSubscribers r = some rx) →
      (loop.publishRequest request swarm).2 = .ok rx ∨ ∃ r, loop.bidSubscribers r = some rx := by
  intro rx given
  obtain ⟨r, subscribed⟩ := given
  unfold EventLoop.publishRequest at subscribed ⊢
  split at subscribed
  · exact .inr ⟨r, subscribed⟩
  · dsimp only at subscribed ⊢
    by_cases same : r = request.requestId
    · subst same
      rw [Function.update_self] at subscribed
      exact .inl (congrArg Except.ok (Option.some.inj subscribed))
    · rw [Function.update_of_ne same] at subscribed
      exact .inr ⟨r, subscribed⟩

theorem command_moves {command : MeshCommand} {swarm : SwarmAnswers} (kept : m.StancesKept)
    (step : Step X m (.command command swarm) n) : Handshake.Step m.handshake n.handshake := by
  have seats := seats_kept kept step (fun _ _ _ same => by cases same) (fun _ same => by cases same)
  cases step with
  | @command _ rest _ idle queued fresh outFresh =>
    have older (tx : OneshotId) (drawn : tx.serial < m.serial) : tx.serial < m.serial + 1 := Nat.lt_succ_of_lt drawn
    have before : m.handshake.given = none ∧
        m.handshake.transit = command.publishesOn.toList ++ rest.filterMap MeshCommand.publishesOn := by
      simp only [World.handshake, idle, queued]
      cases named : command.publishesOn <;> simp [replying, named]
    obtain ⟨silent, transit⟩ := before
    by_cases publishes : command.publishesOn = none
    · obtain ⟨subscribers, quiet⟩ := handleCommand_unsubscribed m.loop swarm publishes
      rw [publishes] at transit
      refine Handshake.Ages.step ⟨seats, older, ?_, ?_, rfl, rfl, ?_, fun _ closed => closed⟩
      · rw [transit]
        simp only [World.handshake, World.setTask_same, quiet]
        rfl
      · rw [silent]
        simp only [World.handshake, World.setTask_same, quiet]
        rfl
      · intro rx opened
        simpa only [World.handshake, World.setTask, subscribers] using opened
    · cases command with
      | publish request tx =>
        have opens := publishRequest_opens m.loop request swarm
        have task : (m.loop.handleCommand (.publish request tx) swarm).2 =
            call (.replyPublish tx (m.loop.publishRequest request swarm).2) := rfl
        cases outcome : (m.loop.publishRequest request swarm).2 with
        | error e =>
          rw [outcome] at task
          refine Handshake.Ages.step ⟨seats, older, ?_, ?_, rfl, rfl, ?_, fun _ closed => closed⟩
          · rw [transit]
            simp only [World.handshake, World.setTask_same, task]
            rfl
          · rw [silent]
            simp only [World.handshake, World.setTask_same, task]
            rfl
          · intro rx opened
            exact (opens rx opened).resolve_left (by simp [outcome])
        | ok channel =>
          rw [outcome] at task
          refine ⟨_, .take (c := channel) transit silent, seats, older, ?_, ?_, rfl, rfl, ?_, fun _ closed => closed⟩
          · rw [transit]
            simp only [World.handshake, World.setTask_same, task]
            rfl
          · simp only [World.handshake, World.setTask_same, task]
            rfl
          · intro rx opened
            refine (opens rx opened).imp_left fun same => ?_
            rw [outcome] at same
            exact (Except.ok.inj same).symm
      | _ => exact absurd rfl publishes

theorem event_moves {event : Event} (kept : m.StancesKept) (step : Step X m (.event event) n) :
    Handshake.Step m.handshake n.handshake := by
  have seats := seats_kept kept step (fun _ _ _ same => by cases same) (fun _ same => by cases same)
  have subscribers := step_bidSubscribers step rfl
  have quiet : replying (m.loop.handleEvent X event).2 = none := by
    apply not_replying fun op => ∀ tx result, op ≠ .replyPublish tx result
    · apply handleEvent_sat
      · intro op plain tx result same
        subst same
        cases plain
      · exact fun _ _ _ _ _ _ _ _ _ => nofun
      · exact fun _ _ _ _ _ _ _ _ => ⟨nofun, fun _ => ⟨fun _ _ _ => nofun, fun _ => nofun⟩⟩
    · exact fun tx result never => never tx result rfl
  cases step with
  | event idle =>
    refine Handshake.Ages.step ⟨seats, fun _ drawn => drawn, ?_, ?_, rfl, rfl, ?_, fun _ closed => closed⟩
    · simp only [World.handshake, World.setTask_same, quiet, idle]
      rfl
    · simp only [World.handshake, World.setTask_same, quiet, idle]
      rfl
    · intro rx opened
      simpa only [World.handshake, subscribers] using opened

theorem external_moves {command : MeshCommand} (kept : m.StancesKept) (handle : (Label.external command).handleOnly)
    (step : Step X m (.external command) n) : Handshake.Step m.handshake n.handshake := by
  have seats := seats_kept kept step (fun _ _ _ same => by cases same) (fun _ same => by cases same)
  have silent : command.publishesOn = none := by
    cases command with
    | publish request tx => exact handle.elim
    | _ => rfl
  cases step with
  | external alive room =>
    refine Handshake.Ages.step ⟨seats, fun _ drawn => drawn, ?_, rfl, rfl, rfl, fun _ opened => opened,
      fun _ closed => closed⟩
    simp [World.handshake, List.filterMap_append, silent]

/-- Every step of the coordinator is a step of the handshake. -/
theorem handshake_step (kept : m.StancesKept) (calls : TasksSat (fun id op => id.performs op) (fun _ _ => True) m)
    (task : LoopTask m.loop (m.tasks .eventLoop)) (handle : label.handleOnly) (step : Step X m label n)
    (alive : n.loopGone = false) : Handshake.Step m.handshake n.handshake := by
  cases label with
  | call id op answer =>
    have performs := calls.guaranteed step
    cases id with
    | chat k => exact chat_call_moves kept performs step alive
    | eventLoop => exact loop_call_moves kept task step
    | _ =>
      have unwired : op.wires = false := by
        cases op <;> first | rfl | cases performs
      have seats := seats_kept kept step (fun _ _ _ same => by cases same) (fun _ same => by cases same)
      have loop : n.tasks .eventLoop = m.tasks .eventLoop :=
        loop_task_kept step (fun _ _ same => by cases same) (fun same => by cases same)
      cases step with
      | call waiting answered =>
        exact (((perform_wires unwired answered).setTask _ _).ages seats (congrArg replying loop)).step
  | cancel k => exact cancel_moves kept step
  | command command swarm => exact command_moves kept step
  | event event => exact event_moves kept step
  | external command => exact external_moves kept handle step
  | request k req =>
    have seats := seats_started kept step rfl
    have loop : n.tasks .eventLoop = m.tasks .eventLoop :=
      loop_task_kept step (fun _ _ same => by cases same) (fun same => by cases same)
    cases step with
    | request free =>
      have idle : m.handshake.stance k = .free := by
        simp only [World.handshake, World.stance, free]
        rfl
      rw [← idle, Function.update_eq_self] at seats
      exact (((SameWires.refl m).setTask _ _).ages seats (congrArg replying loop)).step
  | receive k rx bid =>
    have seats := seats_kept kept step (fun _ _ _ same => by cases same) (fun _ same => by cases same)
    cases step with
    | receive collecting queued =>
      refine Handshake.Ages.step (SameWires.ages { SameWires.refl m with received := fun other => ?_ } seats rfl)
      by_cases same : other = rx
      · subst same
        simp only [World.receiveBid, Function.update_self]
      · simp only [World.receiveBid, Function.update_of_ne same]
  | forward =>
    have seats := seats_kept kept step (fun _ _ _ same => by cases same) (fun _ same => by cases same)
    have loop : n.tasks .eventLoop = m.tasks .eventLoop :=
      loop_task_kept step (fun _ _ same => by cases same) (fun same => by cases same)
    cases step with
    | forward idle => exact (((SameWires.refl m).setTask _ _).ages seats (congrArg replying loop)).step
  | execute k job =>
    have seats := seats_kept kept step (fun _ _ _ same => by cases same) (fun _ same => by cases same)
    have loop : n.tasks .eventLoop = m.tasks .eventLoop :=
      loop_task_kept step (fun _ _ same => by cases same) (fun same => by cases same)
    cases step with
    | execute free known => exact (((SameWires.refl m).setTask _ _).ages seats (congrArg replying loop)).step

/-- The dispatch that answers on `out` is queued, with libp2p, about to be answered, or answered. -/
def Outstanding (w : World C) (out : OneshotId) : Prop :=
  (∃ peer dispatch, MeshCommand.dispatchInference peer dispatch out ∈ w.commands) ∨
    (∃ outId, w.loop.pendingInference outId = some out) ∨
    (∃ result, w.tasks .eventLoop = call (.replyInference out result)) ∨ w.inferenceReplies out ≠ none

theorem queued_outstanding {peer : PeerId} {dispatch : InferenceDispatch} {out : OneshotId} (step : Step X m label n)
    (queued : MeshCommand.dispatchInference peer dispatch out ∈ m.commands) : Outstanding n out := by
  have moved : MeshCommand.dispatchInference peer dispatch out ∈ label.takes.toList ++ n.commands := by
    rw [← step_commands step]
    exact List.mem_append_left _ queued
  rcases List.mem_append.mp moved with taken | still
  · cases label with
    | command command swarm =>
      cases List.mem_singleton.mp taken
      refine .inr (.inl ⟨swarm.outId, ?_⟩)
      rw [step_pending step]
      exact Function.update_self _ _ _
    | _ => cases taken
  · exact .inl ⟨peer, dispatch, still⟩

theorem settled_replies {outId : Nat} {out : OneshotId} {event : Event} {result : Except String InferenceReply}
    (step : Step X m (.event event) n) (outcome : event.outcome = some (outId, result))
    (pending : m.loop.pendingInference outId = some out) :
    n.tasks .eventLoop = call (.replyInference out result) := by
  cases step with
  | event idle =>
    rw [World.setTask_same]
    cases event with
    | inferenceResponse outId response =>
      cases outcome
      simp only [EventLoop.handleEvent, EventLoop.replyInference, pending]
    | inferenceFailure outId error =>
      cases outcome
      simp only [EventLoop.handleEvent, EventLoop.replyInference, pending]
    | _ => cases outcome

theorem pending_outstanding {outId : Nat} {out : OneshotId} (old : outId < m.serial) (step : Step X m label n)
    (pending : m.loop.pendingInference outId = some out) : Outstanding n out := by
  by_cases settles : ∃ result, label.settles = some (outId, result)
  · obtain ⟨result, settles⟩ := settles
    cases label with
    | event event => exact .inr (.inr (.inl ⟨result, settled_replies step settles pending⟩))
    | _ => cases settles
  · refine .inr (.inl ⟨outId, ?_⟩)
    rw [step_pending step, pendingAfter_other ?_ fun result same => settles ⟨result, same⟩, pending]
    intro dispatches
    cases label with
    | command command swarm =>
      have fresh := (command_serial step).2.1
      cases command with
      | dispatchInference peer dispatch reply =>
        cases dispatches
        omega
      | _ => cases dispatches
    | _ => cases dispatches

theorem replying_outstanding {out : OneshotId} {result : Except String InferenceReply} (step : Step X m label n)
    (replies : m.tasks .eventLoop = call (.replyInference out result)) : Outstanding n out := by
  rcases step_starts step .eventLoop with ⟨_, ⟨_, same⟩ | ⟨starts, _⟩⟩ | ⟨op, next, answer, _, rfl, waiting, _⟩
  · exact .inr (.inr (.inl ⟨result, same.trans replies⟩))
  · cases step with
    | command idle =>
      rw [replies] at idle
      cases idle
    | event idle =>
      rw [replies] at idle
      cases idle
    | _ => cases starts
  · rw [replies] at waiting
    cases waiting
    cases step with
    | call waiting answered =>
      cases answered
      refine .inr (.inr (.inr ?_))
      simp [World.setTask]

theorem replied_outstanding {out : OneshotId} (step : Step X m label n) (replied : m.inferenceReplies out ≠ none) :
    n.inferenceReplies out ≠ none := by
  cases step with
  | cancel k => rwa [dropChat_replies]
  | @call w'' id op next answer waiting answered =>
    change w''.inferenceReplies out ≠ none
    cases performed answered with
    | replied tx result =>
      by_cases same : out = tx
      · subst same
        simp
      · simpa [same] using replied
    | _ => exact replied
  | _ => exact replied

theorem Outstanding.step {out : OneshotId} (numbered : ∀ outId, m.loop.pendingInference outId ≠ none → outId < m.serial)
    (outstanding : Outstanding m out) (step : Step X m label n) : Outstanding n out := by
  rcases outstanding with ⟨peer, dispatch, queued⟩ | ⟨outId, pending⟩ | ⟨result, replies⟩ | replied
  · exact queued_outstanding step queued
  · exact pending_outstanding (numbered outId (by rw [pending]; nofun)) step pending
  · exact replying_outstanding step replies
  · exact .inr (.inr (.inr (replied_outstanding step replied)))

/-- Who waits for whom, as long as the event loop lives. -/
structure Wired (w : World C) : Prop where
  stances : w.StancesKept
  calls : TasksSat (fun id op => id.performs op) (fun _ _ => True) w
  loopTask : LoopTask w.loop (w.tasks .eventLoop)
  numbered : ∀ outId, w.loop.pendingInference outId ≠ none → outId < w.serial
  handshake : w.loopGone = false → w.handshake.Sound
  outstanding : w.loopGone = false → ∀ k out, w.stance k = .result out → Outstanding w out

theorem loopTask_step (kept : LoopTask m.loop (m.tasks .eventLoop)) (step : Step X m label n) :
    LoopTask n.loop (n.tasks .eventLoop) := by
  have moves {task : Task Unit} (same : n.loop.bidSubscribers = m.loop.bidSubscribers) (kept : LoopTask m.loop task) :
      LoopTask n.loop task := by
    cases kept with
    | publish tx result => exact .publish tx result
    | infer out result => exact .infer out result
    | other sat =>
      refine .other (sat.mono fun op may => ?_)
      cases op with
      | sendBid rx bid =>
        obtain ⟨r, subscribed⟩ := may
        exact ⟨r, same ▸ subscribed⟩
      | _ => exact may
  rcases step_starts step .eventLoop with ⟨_, ⟨starts, same⟩ | ⟨_, begun⟩⟩ | ⟨op, next, answer, _, rfl, waiting, _, moved⟩
  · rw [same]
    refine moves (step_bidSubscribers step ?_) kept
    cases label with
    | command command swarm => exact absurd rfl starts
    | _ => rfl
  · have fresh := begins_loopTask begun
    generalize n.tasks .eventLoop = task at begun fresh
    cases begun with
    | command command swarm =>
      cases command with
      | publish request tx => exact .publish tx _
      | _ =>
        refine moves ?_ fresh
        cases step
        exact (handleCommand_unsubscribed _ _ rfl).1
    | event event => exact moves (step_bidSubscribers step rfl) fresh
  · rw [moved]
    refine moves (step_bidSubscribers step rfl) ?_
    generalize m.tasks .eventLoop = task at kept waiting
    cases kept with
    | publish tx result =>
      cases waiting
      exact .other trivial
    | infer out result =>
      cases waiting
      exact .other trivial
    | other sat => exact .other ((sat.step waiting answer).2 trivial)

theorem numbered_step (kept : ∀ outId, m.loop.pendingInference outId ≠ none → outId < m.serial)
    (step : Step X m label n) (outId : Nat) (pending : n.loop.pendingInference outId ≠ none) : outId < n.serial := by
  have more := step_serial step
  by_cases dispatches : label.dispatches = some outId
  · cases label with
    | command command swarm =>
      obtain ⟨_, fresh, next⟩ := command_serial step
      cases command with
      | dispatchInference peer dispatch reply =>
        cases dispatches
        omega
      | _ => cases dispatches
    | _ => cases dispatches
  · rw [step_pending step] at pending
    by_cases settles : ∃ result, label.settles = some (outId, result)
    · obtain ⟨result, settles⟩ := settles
      exact absurd (pendingAfter_settled settles) pending
    · rw [pendingAfter_other dispatches fun result same => settles ⟨result, same⟩] at pending
      exact Nat.lt_of_lt_of_le (kept outId pending) more

theorem alive_before (step : Step X m label n) (alive : n.loopGone = false) : m.loopGone = false := by
  cases state : m.loopGone with
  | false => rfl
  | true => exact absurd (alive.symm.trans (step_loopGone step state)) nofun

theorem outstanding_step (kept : Wired m) (step : Step X m label n) (alive : n.loopGone = false) {k : Nat}
    {out : OneshotId} (waits : n.stance k = .result out) : Outstanding n out := by
  rcases (stance_step kept.stances step k).2 with ⟨_, _, same⟩ | ⟨_, free⟩ | ⟨op, answer, rfl, _, next⟩
  · rw [same] at waits
    exact (kept.outstanding (alive_before step alive) k out waits).step kept.numbered step
  · rw [free] at waits
    cases waits
  · rw [next] at waits
    have sent : ∃ peer dispatch, (Label.call (.chat k) op answer).sends =
        some (.dispatchInference peer dispatch out) := by
      unfold ChatStance.after at waits
      split at waits <;> cases waits
      exact ⟨_, _, rfl⟩
    obtain ⟨peer, dispatch, sent⟩ := sent
    refine .inl ⟨peer, dispatch, ?_⟩
    have moved := step_commands step
    rw [sent] at moved
    change _ = n.commands at moved
    rw [← moved]
    exact List.mem_append_right _ (List.mem_singleton.mpr rfl)

theorem Wired.step (kept : Wired m) (label : Label) (handle : label.handleOnly) (step : Step X m label n) : Wired n where
  stances k := (stance_step kept.stances step k).1
  calls := kept.calls.step step (fun _ _ begun => begins_performs begun) fun _ _ _ _ _ _ _ => trivial
  loopTask := loopTask_step kept.loopTask step
  numbered := numbered_step kept.numbered step
  handshake alive := (kept.handshake (alive_before step alive)).step
    (handshake_step kept.stances kept.calls kept.loopTask handle step alive)
  outstanding alive _ _ waits := outstanding_step kept step alive waits

theorem Wired.called {id : TaskId} {op : Call} {answer : Answer op} (kept : Wired m)
    (step : Step X m (.call id op answer) n) : Wired n := kept.step (.call id op answer) trivial step

theorem wired_start (loop : EventLoop C) (archive : ReceiptArchive) (ttl : UInt64)
    (unsubscribed : ∀ r, loop.bidSubscribers r = none) (clear : ∀ outId, loop.pendingInference outId = none) :
    Wired (World.start loop archive ttl) where
  stances _ := rfl
  calls _ := trivial
  loopTask := .other trivial
  numbered outId pending := absurd (clear outId) pending
  handshake _ := by
    constructor
    case attended =>
      intro rx opened
      obtain ⟨r, subscribed⟩ := opened
      exact absurd (subscribed.symm.trans (unsubscribed r)) nofun
    case once => exact List.nodup_nil
    all_goals exact nofun
  outstanding _ _ _ waits := by cases waits

theorem wired_run {start : World C} {trace : List (World C × Label)} (run : Runs X start trace w) (first : Wired start)
    (handle : ∀ step ∈ trace, step.2.handleOnly) : Wired w :=
  run.invariant first fun _ _ _ member step kept => kept.step _ (handle _ member) step

end Coordinator
