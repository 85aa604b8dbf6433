import Pinaivu.Coordinator.Executions

namespace Coordinator

open Protocol Crypto Async

variable {C : Primitives} {X : Externals} {loop : EventLoop C} {archive : ReceiptArchive} {ttl : UInt64}
  {w m n : World C} {trace : List (World C × Label)} {label : Label}

def Label.callBy (id : TaskId) : Label → Option (Σ op, Answer op)
  | .call other op answer => if other = id then some ⟨op, answer⟩ else none
  | _ => none

def callsBy (id : TaskId) (trace : List (World C × Label)) : List (Σ op, Answer op) :=
  trace.filterMap fun step => step.2.callBy id

theorem callsBy_snoc (id : TaskId) (trace : List (World C × Label)) (m : World C) (label : Label) :
    callsBy id (trace ++ [(m, label)]) = callsBy id trace ++ (label.callBy id).toList := filterMap_snoc _ _ _

theorem mem_callsBy {id : TaskId} {op : Call} {answer : Answer op} (member : ⟨op, answer⟩ ∈ callsBy id trace) :
    ∃ m, (m, Label.call id op answer) ∈ trace := by
  obtain ⟨⟨m, label⟩, member, made⟩ := List.mem_filterMap.mp member
  cases label with
  | call other op' answer' =>
    simp only [Label.callBy] at made
    split at made
    · rename_i same
      cases same
      cases made
      exact ⟨m, member⟩
    · cases made
  | _ => cases made

theorem callBy_other {id : TaskId} (calls : ∀ op answer, label ≠ .call id op answer) : label.callBy id = none := by
  cases label with
  | call other op answer =>
    refine if_neg fun same => ?_
    subst same
    exact calls op answer rfl
  | _ => rfl

def Label.called : Label → Option (Σ op, Answer op)
  | .call _ op answer => some ⟨op, answer⟩
  | _ => none

def callsMade (trace : List (World C × Label)) : List (Σ op, Answer op) := trace.filterMap fun step => step.2.called

theorem callsMade_snoc (trace : List (World C × Label)) (m : World C) (label : Label) :
    callsMade (trace ++ [(m, label)]) = callsMade trace ++ label.called.toList := filterMap_snoc _ _ _

theorem callsMade_own {β : Type} {id : TaskId} {kind : (Σ op, Answer op) → Option β}
    (run : Runs X (World.start loop archive ttl) trace w)
    (own : ∀ other op answer, TaskId.performs other op = true → kind ⟨op, answer⟩ ≠ none → other = id) :
    (callsMade trace).filterMap kind = (callsBy id trace).filterMap kind := by
  refine run.history (I := fun trace _ => (callsMade trace).filterMap kind = (callsBy id trace).filterMap kind) rfl ?_
  intro before m label n run _ step kept
  rw [callsMade_snoc, callsBy_snoc, List.filterMap_append, List.filterMap_append, kept]
  cases label with
  | call other op answer =>
    by_cases same : other = id
    · simp [Label.called, Label.callBy, same]
    · have nothing : kind ⟨op, answer⟩ = none := by
        by_contra some
        exact same (own other op answer (call_performs run step) some)
      simp [Label.called, Label.callBy, same, nothing]
  | _ => rfl

/-- A running call has come to where it is by its own calls since its request came in, the last one for its place. -/
theorem serving_path (run : Runs X (World.start loop archive ttl) trace w) (k : Nat) :
    w.tasks (.chat k) = .done () ∨ ∃ before x req after, trace = before ++ (x, .request k req) :: after ∧
      (∀ step ∈ after, step.2.starts ≠ some (.chat k)) ∧
      (serveChat X C x.loop.enclaveKey x.loop.pgPool req).Follows (callsBy (.chat k) after) (w.tasks (.chat k)) := by
  refine run.history (I := fun trace w => w.tasks (.chat k) = .done () ∨ ∃ before x req after,
    trace = before ++ (x, .request k req) :: after ∧ (∀ step ∈ after, step.2.starts ≠ some (.chat k)) ∧
    (serveChat X C x.loop.enclaveKey x.loop.pgPool req).Follows (callsBy (.chat k) after) (w.tasks (.chat k))) (.inl rfl) ?_
  intro before m label n _ _ step kept
  rcases step_starts step (.chat k) with ⟨calls, ⟨other, same⟩ | ⟨_, begun⟩⟩ | ⟨op, next, answer, _, rfl, waiting, _, moved⟩
  · rw [same]
    refine kept.imp_right fun given => ?_
    obtain ⟨early, x, req, after, rfl, own, path⟩ := given
    refine ⟨early, x, req, after ++ [(m, label)], by simp, ?_, ?_⟩
    · intro step member
      rcases List.mem_append.mp member with inside | last
      · exact own step inside
      · rw [List.mem_singleton.mp last]
        exact other
    · rwa [callsBy_snoc, callBy_other calls, Option.toList_none, List.append_nil]
  · generalize n.tasks (.chat k) = task at begun
    cases begun with
    | serve k req => exact .inr ⟨before, m, req, [], rfl, fun _ member => absurd member List.not_mem_nil, .nil⟩
    | drop k => exact .inl rfl
  · rw [waiting] at kept
    obtain ⟨early, x, req, after, rfl, own, path⟩ := kept.resolve_left nofun
    refine .inr ⟨early, x, req, after ++ [(m, .call (.chat k) op answer)], by simp, ?_, ?_⟩
    · intro step member
      rcases List.mem_append.mp member with inside | last
      · exact own step inside
      · rw [List.mem_singleton.mp last]
        exact nofun
    · rw [moved, callsBy_snoc, Label.callBy, if_pos rfl]
      exact path.snoc answer

/-- Something the event loop takes up, and the calls it makes for it. -/
structure Turn (C : Primitives) where
  world : World C
  label : Label
  calls : List (Σ op, Answer op)

def Turn.Leaves (X : Externals) (turn : Turn C) (rest : Task Unit) : Prop :=
  ∃ begun, Begins X turn.world turn.label .eventLoop begun ∧ begun.Follows turn.calls rest

inductive TurnsTo (X : Externals) : List (Turn C) → Task Unit → Prop where
  | nil : TurnsTo X [] (.done ())
  | snoc {turns : List (Turn C)} {turn : Turn C} {rest : Task Unit} (earlier : TurnsTo X turns (.done ()))
      (leaves : turn.Leaves X rest) : TurnsTo X (turns ++ [turn]) rest

theorem Label.callBy_starts {id : TaskId} (starts : label.starts = some id) : label.callBy id = none := by
  cases label with
  | call other op answer => cases starts
  | _ => rfl

theorem loop_starts_idle (step : Step X m label n) (starts : label.starts = some .eventLoop) :
    m.tasks .eventLoop = .done () := by
  cases step with
  | command idle queued fresh outFresh => exact idle
  | event idle => exact idle
  | _ => cases starts

/-- A run as the event loop sees it: its turns, in order, with the calls made in each. -/
theorem loop_turns (run : Runs X (World.start loop archive ttl) trace w) :
    ∃ turns, TurnsTo X turns (w.tasks .eventLoop) ∧
      turns.map (fun turn => (turn.world, turn.label)) = trace.filter (·.2.starts = some .eventLoop) ∧
      turns.flatMap (·.calls) = callsBy .eventLoop trace := by
  refine run.history (I := fun trace w => ∃ turns, TurnsTo X turns (w.tasks .eventLoop) ∧
    turns.map (fun turn => (turn.world, turn.label)) = trace.filter (·.2.starts = some .eventLoop) ∧
    turns.flatMap (·.calls) = callsBy .eventLoop trace) ⟨[], .nil, rfl, rfl⟩ ?_
  intro before m label n _ _ step kept
  obtain ⟨turns, paced, taken, calls⟩ := kept
  rw [callsBy_snoc, List.filter_append, ← taken, ← calls]
  rcases step_starts step .eventLoop with ⟨other, ⟨starts, same⟩ | ⟨starts, begun⟩⟩ |
    ⟨op, next, answer, _, rfl, waiting, _, moved⟩
  · refine ⟨turns, same ▸ paced, ?_, ?_⟩
    · simp [starts]
    · simp [callBy_other other]
  · rw [loop_starts_idle step starts] at paced
    refine ⟨turns ++ [⟨m, label, []⟩], .snoc paced ⟨_, begun, .nil⟩, ?_, ?_⟩
    · simp [starts]
    · simp [Label.callBy_starts starts]
  · rw [waiting] at paced
    generalize shape : Routine.call op next = rest at paced
    cases paced with
    | nil => cases shape
    | @snoc earlier turn _ whole leaves =>
      subst shape
      obtain ⟨begun, begins, path⟩ := leaves
      refine ⟨earlier ++ [{ turn with calls := turn.calls ++ [⟨op, answer⟩] }], ?_, ?_, ?_⟩
      · rw [moved]
        exact .snoc whole ⟨begun, begins, path.snoc answer⟩
      · simp [Label.starts]
      · simp [Label.callBy]

theorem TurnsTo.whole {turns : List (Turn C)} {rest : Task Unit} (paced : TurnsTo X turns rest)
    (idle : rest = .done ()) : ∀ turn ∈ turns, turn.Leaves X (.done ()) := by
  induction paced with
  | nil => simp
  | snoc earlier leaves ih =>
    subst idle
    intro turn member
    rcases List.mem_append.mp member with inside | last
    · exact ih rfl turn inside
    · rw [List.mem_singleton.mp last]
      exact leaves

theorem idle_turns (run : Runs X (World.start loop archive ttl) trace w) (idle : w.tasks .eventLoop = .done ()) :
    ∃ turns : List (Turn C), (∀ turn ∈ turns, turn.Leaves X (.done ())) ∧
      turns.map (fun turn => (turn.world, turn.label)) = trace.filter (·.2.starts = some .eventLoop) ∧
      turns.flatMap (·.calls) = callsBy .eventLoop trace := by
  obtain ⟨turns, paced, taken, calls⟩ := loop_turns run
  exact ⟨turns, paced.whole idle, taken, calls⟩

end Coordinator
