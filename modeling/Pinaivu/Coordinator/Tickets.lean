import Pinaivu.Coordinator.ChatPhases
import Pinaivu.Coordinator.Performed

namespace Coordinator

open Protocol Crypto Async

variable {C : Primitives} {X : Externals} {loop : EventLoop C} {archive : ReceiptArchive} {ttl : UInt64}
  {w m n : World C} {trace : List (World C × Label)} {label : Label}

namespace ChatPhase

def ticket : ChatPhase → Option OneshotId
  | .opened _ tx => some tx
  | .asked _ tx => some tx
  | .joined _ tx _ => some tx
  | .collected _ tx _ => some tx
  | .addressed _ tx _ => some tx
  | .readied _ tx _ _ => some tx
  | .dispatched _ tx _ _ => some tx
  | _ => none

def outlet : ChatPhase → Option OneshotId
  | .readied _ _ _ out => some out
  | .dispatched _ _ _ out => some out
  | _ => none

def request : ChatPhase → Option RequestId
  | .opened r _ => some r
  | .asked r _ => some r
  | .joined r _ _ => some r
  | .collected r _ _ => some r
  | .addressed r _ _ => some r
  | .readied r _ _ _ => some r
  | .dispatched r _ _ _ => some r
  | _ => none

def bids : ChatPhase → Option (List InferenceBid)
  | .collected _ _ bids => some bids
  | .addressed _ _ bids => some bids
  | .readied _ _ bids _ => some bids
  | .dispatched _ _ bids _ => some bids
  | _ => none

variable {phase : ChatPhase} {op : Call} {answer : Answer op} {tx : OneshotId}

theorem advance_ticket (allowed : phase.Allowed op) (held : (phase.advance op answer).ticket = some tx) :
    phase.ticket = some tx ∨ ∃ r, op = .newOneshot r ∧ HEq answer tx := by
  cases allowed with
  | open_reply =>
    cases held
    exact .inr ⟨_, rfl, HEq.rfl⟩
  | publish own =>
    cases answer with
    | false => cases held
    | true => exact .inl held
  | await =>
    cases answer with
    | error e => cases held
    | ok rx => exact .inl held
  | dispatch own =>
    cases answer with
    | false => cases held
    | true => exact .inl held
  | respond => cases phase <;> cases held
  | name => cases held
  | session => cases held
  | result => cases held
  | _ => exact .inl held

theorem advance_outlet (allowed : phase.Allowed op) (held : (phase.advance op answer).outlet = some tx) :
    phase.outlet = some tx ∨ ∃ r, op = .newOneshot r ∧ HEq answer tx := by
  cases allowed with
  | open_result =>
    cases held
    exact .inr ⟨_, rfl, HEq.rfl⟩
  | publish own => cases answer <;> cases held
  | await => cases answer <;> cases held
  | dispatch own =>
    cases answer with
    | false => cases held
    | true => exact .inl held
  | respond => cases phase <;> cases held
  | _ => cases held

theorem advance_request (allowed : phase.Allowed op) (had : phase.ticket = some tx)
    (held : (phase.advance op answer).ticket = some tx) :
    (phase.advance op answer).request = phase.request := by
  cases allowed with
  | publish own => cases answer <;> first | rfl | cases held
  | await => cases answer <;> first | rfl | cases held
  | dispatch own => cases answer <;> first | rfl | cases held
  | respond => cases phase <;> cases held
  | name => cases had
  | session => cases had
  | open_reply => cases had
  | result => cases held
  | _ => rfl

theorem advance_bids {bids : List InferenceBid} (allowed : phase.Allowed op) (had : phase.bids = some bids)
    (held : (phase.advance op answer).ticket = some tx) : (phase.advance op answer).bids = some bids := by
  cases allowed with
  | dispatch own =>
    cases answer with
    | false => cases held
    | true => exact had
  | respond => cases phase <;> cases held
  | result => cases held
  | name => cases had
  | session => cases had
  | open_reply => cases had
  | publish own => cases had
  | await => cases had
  | collect => cases had
  | _ => exact had

end ChatPhase

theorem step_serial (step : Step X m label n) : m.serial ≤ n.serial := by
  cases step with
  | cancel k =>
    obtain ⟨_, _, shape, _⟩ := dropChat_eq m k
    rw [shape]
    exact Nat.le_refl _
  | @call w'' id op next answer waiting answered =>
    change m.serial ≤ w''.serial
    cases performed answered with
    | oneshot request => exact Nat.le_succ _
    | _ => exact Nat.le_refl _
  | command => exact Nat.le_succ _
  | _ => exact Nat.le_refl _

theorem oneshot_serial {id : TaskId} {r : RequestId} {tx : OneshotId}
    (step : Step X m (.call id (.newOneshot r) tx) n) : tx = ⟨r, m.serial⟩ ∧ n.serial = m.serial + 1 := by
  cases step with
  | call waiting answered =>
    cases performed answered with
    | silent quiet => cases quiet
    | oneshot request => exact ⟨rfl, rfl⟩

/-- A channel that calls hold only after making it themselves. -/
structure Ticket (holds : ChatPhase → Option OneshotId) : Prop where
  start : holds .start = none
  idle : holds .ended = none
  draws : ∀ {phase : ChatPhase} {op : Call} {answer : Answer op} {tx : OneshotId}, phase.Allowed op →
    holds (phase.advance op answer) = some tx → holds phase = some tx ∨ ∃ r, op = .newOneshot r ∧ HEq answer tx

theorem ticket_isTicket : Ticket ChatPhase.ticket := ⟨rfl, rfl, ChatPhase.advance_ticket⟩

theorem outlet_isTicket : Ticket ChatPhase.outlet := ⟨rfl, rfl, ChatPhase.advance_outlet⟩

namespace Ticket

variable {holds : ChatPhase → Option OneshotId} (T : Ticket holds) {k : Nat} {tx : OneshotId}
include T

theorem step (run : Runs X (World.start loop archive ttl) trace m) (step : Step X m label n)
    (held : holds (chatPhase k (trace ++ [(m, label)])) = some tx) :
    holds (chatPhase k trace) = some tx ∨
      ∃ r, label = .call (.chat k) (.newOneshot r) tx ∧ tx.serial = m.serial ∧ n.serial = m.serial + 1 := by
  rcases chatPhase_step run step k with same | ⟨op, answer, rfl, allowed, moved⟩ | begun | ended
  · rw [same] at held
    exact .inl held
  · rw [moved] at held
    rcases T.draws allowed held with old | ⟨r, rfl, same⟩
    · exact .inl old
    · cases same
      obtain ⟨rfl, more⟩ := oneshot_serial step
      exact .inr ⟨r, rfl, rfl, more⟩
  · rw [begun, T.start] at held
    cases held
  · rw [ended, T.idle] at held
    cases held

theorem keeps {Q : ChatPhase → Prop} (run : Runs X (World.start loop archive ttl) trace m)
    (step : Step X m label n)
    (advance : ∀ {phase : ChatPhase} {op : Call} {answer : Answer op}, phase.Allowed op → Q phase →
      holds phase = some tx → holds (phase.advance op answer) = some tx → Q (phase.advance op answer))
    (had : holds (chatPhase k trace) = some tx) (known : Q (chatPhase k trace))
    (held : holds (chatPhase k (trace ++ [(m, label)])) = some tx) : Q (chatPhase k (trace ++ [(m, label)])) := by
  rcases chatPhase_step run step k with same | ⟨op, answer, rfl, allowed, moved⟩ | begun | ended
  · rwa [same]
  · rw [moved] at held ⊢
    exact advance allowed known had held
  · rw [begun, T.start] at held
    cases held
  · rw [ended, T.idle] at held
    cases held

end Ticket

/-- No two calls hold the same ticket, and the next one to be drawn is new. -/
structure Ticketed (holds : ChatPhase → Option OneshotId) (trace : List (World C × Label)) (w : World C) :
    Prop where
  drawn : ∀ k tx, holds (chatPhase k trace) = some tx → tx.serial < w.serial
  alone : ∀ k other tx, holds (chatPhase k trace) = some tx → holds (chatPhase other trace) = some tx → k = other

namespace Ticket

variable {holds : ChatPhase → Option OneshotId} (T : Ticket holds)
include T

theorem ticketed (run : Runs X (World.start loop archive ttl) trace w) : Ticketed holds trace w := by
  refine run.history (I := Ticketed holds) ⟨?_, ?_⟩ ?_
  · intro k tx held
    rw [show chatPhase k ([] : List (World C × Label)) = .ended from rfl, T.idle] at held
    cases held
  · intro k other tx held
    rw [show chatPhase k ([] : List (World C × Label)) = .ended from rfl, T.idle] at held
    cases held
  intro before m label n run _ step kept
  have more := step_serial step
  refine ⟨fun k tx held => ?_, fun k other tx held also => ?_⟩
  · rcases T.step run step held with old | ⟨_, _, new, next⟩
    · exact Nat.lt_of_lt_of_le (kept.drawn k tx old) more
    · omega
  · rcases T.step run step held with old | ⟨r, drawn, new, _⟩
    · rcases T.step run step also with older | ⟨_, _, new, _⟩
      · exact kept.alone k other tx old older
      · have before := kept.drawn k tx old
        omega
    · rcases T.step run step also with older | ⟨r', drawn', _⟩
      · have before := kept.drawn other tx older
        omega
      · rw [drawn] at drawn'
        cases drawn'
        rfl

theorem spent {α : Type} (did : List (World C × Label) → α → Prop) (key : α → OneshotId)
    (Q : α → ChatPhase → Prop) (run : Runs X (World.start loop archive ttl) trace w) (never : ∀ a, ¬ did [] a)
    (advance : ∀ {a : α} {phase : ChatPhase} {op : Call} {answer : Answer op}, phase.Allowed op → Q a phase →
      holds phase = some (key a) → holds (phase.advance op answer) = some (key a) →
      Q a (phase.advance op answer))
    (now : ∀ before m label n a, Runs X (World.start loop archive ttl) before m →
      before ++ [(m, label)] <+: trace → Step X m label n → did (before ++ [(m, label)]) a →
      did before a ∨ ∃ k, holds (chatPhase k before) = some (key a) ∧
        (holds (chatPhase k (before ++ [(m, label)])) = some (key a) → Q a (chatPhase k (before ++ [(m, label)]))))
    {a : α} (done : did trace a) :
    (key a).serial < w.serial ∧ ∀ k, holds (chatPhase k trace) = some (key a) → Q a (chatPhase k trace) := by
  revert done
  refine run.history (I := fun trace w => did trace a → (key a).serial < w.serial ∧
    ∀ k, holds (chatPhase k trace) = some (key a) → Q a (chatPhase k trace)) (fun done => absurd done (never a)) ?_
  intro before m label n run shape step kept done
  have more := step_serial step
  rcases now before m label n a run shape step done with old | ⟨user, holding, known⟩
  · obtain ⟨older, holders⟩ := kept old
    refine ⟨by omega, fun k held => ?_⟩
    rcases T.step run step held with had | ⟨_, _, new, _⟩
    · exact T.keeps run step advance had (holders k had) held
    · omega
  · have older := (T.ticketed run).drawn user _ holding
    refine ⟨by omega, fun k held => ?_⟩
    rcases T.step run step held with had | ⟨_, _, new, _⟩
    · obtain rfl := (T.ticketed run).alone k user _ had holding
      exact known held
    · omega

theorem used_once (use : Label → Option OneshotId) (Q : ChatPhase → Prop)
    (run : Runs X (World.start loop archive ttl) trace w)
    (advance : ∀ {phase : ChatPhase} {op : Call} {answer : Answer op} {tx : OneshotId}, phase.Allowed op → Q phase →
      holds phase = some tx → holds (phase.advance op answer) = some tx → Q (phase.advance op answer))
    (now : ∀ before m label n tx, Runs X (World.start loop archive ttl) before m →
      before ++ [(m, label)] <+: trace → Step X m label n → use label = some tx →
      ∃ k, holds (chatPhase k before) = some tx ∧ ¬ Q (chatPhase k before) ∧
        (holds (chatPhase k (before ++ [(m, label)])) = some tx → Q (chatPhase k (before ++ [(m, label)])))) :
    (trace.filterMap fun step => use step.2).Nodup := by
  refine run.history (I := fun trace _ => (trace.filterMap fun step => use step.2).Nodup) List.nodup_nil ?_
  intro before m label n run shape step kept
  rw [filterMap_snoc]
  refine nodup_snoc kept fun tx used old => ?_
  obtain ⟨k, held, unused, _⟩ := now before m label n tx run shape step used
  have spent := T.spent (fun trace tx => tx ∈ trace.filterMap fun step => use step.2) id (fun _ => Q) run nofun
    (fun allowed known had held => advance allowed known had held) ?_ old
  · exact unused (spent.2 k held)
  · intro early x taken y tx reached inside step used
    rw [filterMap_snoc, List.mem_append, Option.mem_toList] at used
    refine used.imp_right fun new => ?_
    obtain ⟨k, held, _, known⟩ := now early x taken y tx reached
      (inside.trans ((List.prefix_append _ _).trans shape)) step new
    exact ⟨k, held, known⟩

end Ticket

end Coordinator
