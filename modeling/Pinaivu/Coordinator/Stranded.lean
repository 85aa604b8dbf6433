import Pinaivu.Coordinator.PaidRows
import Pinaivu.Coordinator.Turns

namespace Coordinator

open Protocol Crypto Async

variable {C : Primitives} {X : Externals} {loop : EventLoop C} {archive : ReceiptArchive} {ttl : UInt64}
  {trace : List (World C × Label)} {w m n : World C} {label : Label} {job : SettlementJob}

def Held (w : World C) (job : SettlementJob) : Prop := ∃ next, w.tasks .forwarder = .call (.pushRequest job) next

def Queued (w : World C) (job : SettlementJob) : Prop :=
  job ∈ w.jobs ∨ Held w job ∨ ∃ stored ∈ w.storage, stored.job = job

def Waiting (w : World C) (job : SettlementJob) : Prop :=
  job ∈ w.jobs ∨ Held w job ∨ ∃ stored ∈ w.storage, stored.job = job ∧ stored.finished = false

theorem forwarder_shape (run : Runs X (World.start loop archive ttl) trace w) :
    w.tasks .forwarder = .done () ∨ w.tasks .forwarder = forwardJob ∨
      ∃ job, w.tasks .forwarder = .call (.pushRequest job) fun _ => .done () := by
  refine run.invariant (I := fun w => w.tasks .forwarder = .done () ∨ w.tasks .forwarder = forwardJob ∨
    ∃ job, w.tasks .forwarder = .call (.pushRequest job) fun _ => .done ()) (.inl rfl) ?_
  intro m label n _ step kept
  rcases step_task step .forwarder with same | ⟨op, next, answer, _, _, waiting, _, moved⟩ | begun
  · rw [same]
    exact kept
  · rw [moved]
    rcases kept with idle | taking | ⟨job, pushing⟩
    · rw [idle] at waiting
      cases waiting
    · rw [taking] at waiting
      cases waiting
      exact .inr (.inr ⟨answer, rfl⟩)
    · rw [pushing] at waiting
      cases waiting
      exact .inl rfl
  · generalize n.tasks .forwarder = task at begun
    cases begun with
    | forward => exact .inr (.inl rfl)

theorem Held.of_step (run : Runs X (World.start loop archive ttl) trace m) (step : Step X m label n)
    (held : Held n job) : Held m job ∨ label = .call .forwarder .recvJob job := by
  obtain ⟨after, pushing⟩ := held
  rcases step_task step .forwarder with same | ⟨op, next, answer, _, rfl, waiting, _, moved⟩ | begun
  · rw [same] at pushing
    exact .inl ⟨after, pushing⟩
  · rw [moved] at pushing
    rcases forwarder_shape run with idle | taking | ⟨other, holding⟩
    · rw [idle] at waiting
      cases waiting
    · rw [taking] at waiting
      cases waiting
      cases pushing
      exact .inr rfl
    · rw [holding] at waiting
      cases waiting
      cases pushing
  · rw [pushing] at begun
    cases begun

theorem Held.step (step : Step X m label n) (held : Held m job) :
    Held n job ∨ ∃ answer, label = .call .forwarder (.pushRequest job) answer := by
  obtain ⟨after, pushing⟩ := held
  rcases step_task step .forwarder with same | ⟨op, next, answer, _, rfl, waiting, _, _⟩ | begun
  · exact .inl ⟨after, same.trans pushing⟩
  · rw [pushing] at waiting
    cases waiting
    exact .inr ⟨answer, rfl⟩
  · generalize n.tasks .forwarder = task at begun
    cases begun with
    | forward =>
      cases step with
      | forward idle =>
        rw [idle] at pushing
        cases pushing

theorem held_of_received (run : Runs X (World.start loop archive ttl) trace m)
    (step : Step X m (.call .forwarder .recvJob job) n) : Held n job := by
  cases step with
  | call waiting answered =>
    rcases forwarder_shape run with idle | taking | ⟨other, holding⟩
    · rw [idle] at waiting
      cases waiting
    · rw [taking] at waiting
      cases waiting
      exact ⟨_, World.setTask_same _ _ _⟩
    · rw [holding] at waiting
      cases waiting

section Queue

variable (run : Runs X (World.start loop archive ttl) trace m) (step : Step X m label n)
include run step

theorem Queued.of_step (queued : Queued n job) : Queued m job ∨ ∃ id, label = .call id (.trySendJob job) (.ok ()) := by
  rcases queued with sent | held | ⟨stored, inside, rfl⟩
  · rcases step_stores step with ⟨_, _, same, _⟩ | ⟨id, op, answer, next, m', rfl, _, answered, rfl⟩
    · rw [same] at sent
      exact .inl (.inl sent)
    · change job ∈ m'.jobs at sent
      cases performed answered with
      | queued other room =>
        rcases List.mem_append.mp sent with old | new
        · exact .inl (.inl old)
        · rw [List.mem_singleton.mp new]
          exact .inr ⟨id, rfl⟩
      | taken other rest first =>
        left
        left
        rw [first]
        exact List.mem_cons_of_mem _ sent
      | _ => exact .inl (.inl sent)
  · rcases held.of_step run step with old | rfl
    · exact .inl (.inr (.inl old))
    · left
      left
      cases step with
      | call waiting answered =>
        cases performed answered with
        | taken other rest first =>
          rw [first]
          exact List.mem_cons_self
        | silent quiet => cases quiet
  · rcases step_stores step with ⟨_, _, _, same⟩ | ⟨id, op, answer, next, m', rfl, waiting, answered, rfl⟩
    · rw [same] at inside
      exact .inl (.inr (.inr ⟨stored, inside, rfl⟩))
    · change stored ∈ m'.storage at inside
      have performs := call_performs run step
      cases performed answered with
      | pushed other =>
        rcases List.mem_append.mp inside with old | new
        · exact .inl (.inr (.inr ⟨stored, old, rfl⟩))
        · rw [List.mem_singleton.mp new]
          cases id with
          | forwarder => exact .inl (.inr (.inl ⟨next, waiting⟩))
          | _ => cases performs
      | finished other =>
        obtain ⟨old, known, rfl⟩ := List.mem_map.mp inside
        refine .inl (.inr (.inr ⟨old, known, ?_⟩))
        split <;> rfl
      | _ => exact .inl (.inr (.inr ⟨stored, inside, rfl⟩))

theorem Waiting.persists (waiting : Waiting m job) :
    Waiting n job ∨ (∃ id e, label = .call id (.pushRequest job) (.error e)) ∨
      ∃ id, label = .call id (.jobResult job (.ok ())) () := by
  rcases waiting with sent | held | ⟨stored, inside, rfl, unfinished⟩
  · rcases step_stores step with ⟨_, _, same, _⟩ | ⟨id, op, answer, next, m', rfl, _, answered, rfl⟩
    · exact .inl (.inl (by rwa [same]))
    · have performs := call_performs run step
      cases performed answered with
      | queued other room => exact .inl (.inl (List.mem_append_left _ sent))
      | taken other rest first =>
        rw [first] at sent
        rcases List.mem_cons.mp sent with rfl | later
        · cases id with
          | forwarder => exact .inl (.inr (.inl (held_of_received run step)))
          | _ => cases performs
        · exact .inl (.inl later)
      | _ => exact .inl (.inl sent)
  · rcases held.step step with still | ⟨answer, rfl⟩
    · exact .inl (.inr (.inl still))
    · cases answer with
      | error e => exact .inr (.inl ⟨_, e, rfl⟩)
      | ok =>
        cases step with
        | call waiting answered =>
          cases answered
          exact .inl (.inr (.inr ⟨⟨job, false⟩, List.mem_append_right _ (List.mem_singleton_self _), rfl, rfl⟩))
  · rcases step_stores step with ⟨_, _, _, same⟩ | ⟨id, op, answer, next, m', rfl, _, answered, rfl⟩
    · exact .inl (.inr (.inr ⟨stored, by rwa [same], rfl, unfinished⟩))
    · cases performed answered with
      | pushed other => exact .inl (.inr (.inr ⟨stored, List.mem_append_left _ inside, rfl, unfinished⟩))
      | finished other =>
        by_cases same : stored.job = other
        · exact .inr (.inr ⟨id, by rw [same]⟩)
        · exact .inl (.inr (.inr ⟨stored, List.mem_map.mpr ⟨stored, inside, if_neg same⟩, rfl, unfinished⟩))
      | _ => exact .inl (.inr (.inr ⟨stored, inside, rfl, unfinished⟩))

end Queue

def Label.offers : Label → Option RequestId
  | .call _ (.trySendJob job) _ => some job.requestId
  | _ => none

def Label.settlesFor : Label → Option RequestId
  | .call _ (.insertPayment row) _ => some row.requestId
  | label => label.offers

def Offered (trace : List (World C × Label)) (r : RequestId) : Prop := ∃ step ∈ trace, step.2.offers = some r

def Touched (trace : List (World C × Label)) (r : RequestId) : Prop := ∃ step ∈ trace, step.2.settlesFor = some r

theorem settlesFor_of_offers {r : RequestId} (offers : label.offers = some r) : label.settlesFor = some r := by
  cases label with
  | call id op answer =>
    cases op with
    | trySendJob job => exact offers
    | _ => cases offers
  | _ => cases offers

theorem Offered.touched {r : RequestId} (offered : Offered trace r) : Touched trace r :=
  offered.imp fun _ step => ⟨step.1, settlesFor_of_offers step.2⟩

theorem Offered.snoc {r : RequestId} (offered : Offered trace r) : Offered (trace ++ [(m, label)]) r :=
  offered.imp fun _ step => ⟨List.mem_append_left _ step.1, step.2⟩

theorem Offered.last {r : RequestId} (offers : label.offers = some r) : Offered (trace ++ [(m, label)]) r :=
  ⟨(m, label), List.mem_append_right _ (List.mem_singleton_self _), offers⟩

theorem Offered.of_snoc {r : RequestId} (offered : Offered (trace ++ [(m, label)]) r) :
    Offered trace r ∨ label.offers = some r := by
  obtain ⟨step, member, offers⟩ := offered
  rcases List.mem_append.mp member with old | last
  · exact .inl ⟨step, old, offers⟩
  · rw [List.mem_singleton.mp last] at offers
    exact .inr offers

theorem Touched.of_snoc {r : RequestId} (touched : Touched (trace ++ [(m, label)]) r) :
    Touched trace r ∨ label.settlesFor = some r := by
  obtain ⟨step, member, settles⟩ := touched
  rcases List.mem_append.mp member with old | last
  · exact .inl ⟨step, old, settles⟩
  · rw [List.mem_singleton.mp last] at settles
    exact .inr settles

/-- Rows and job of a request belong to one turn, in which it leaves `in_flight` for good. -/
structure OneTurn (trace : List (World C × Label)) (w : World C) : Prop where
  touched : ∀ r, Touched trace r →
    r ∈ publishedIds trace ∧ w.loop.inFlight r = none ∧ turnPhase trace ≠ .storing r
  offered : ∀ r, Offered trace r → turnPhase trace ≠ .paying r
  turn : ∀ r, turnPhase trace = .storing r ∨ turnPhase trace = .paying r →
    r ∈ publishedIds trace ∧ w.loop.inFlight r = none

section OneTurn

variable (pool : loop.pgPool = true) (queue : loop.settlementTx = true)

theorem gone_for_good {r : RequestId} (once : (publishedIds (trace ++ [(m, label)])).Nodup) (step : Step X m label n)
    (published : r ∈ publishedIds trace) (gone : m.loop.inFlight r = none) : n.loop.inFlight r = none := by
  rcases step_inFlight step r with same | again | ⟨_, _, _, _, present, _⟩ | ⟨_, _, _, _, _, _, _, cleared⟩
  · rw [same, gone]
  · have twice : r ∈ publishedIds [(m, label)] := List.mem_filterMap.mpr ⟨_, List.mem_singleton_self _, again⟩
    rw [publishedIds_append] at once
    exact absurd twice (List.disjoint_of_nodup_append once published)
  · rw [gone] at present
    cases present
  · exact cleared

theorem advance_storing {phase : TurnPhase} {op : Call} {answer : Answer op} {r : RequestId} (allowed : phase.Allowed op)
    (storing : phase.advance op answer = .storing r) : phase = .storing r := by
  cases allowed with
  | other apart => cases op <;> cases storing
  | store receipt => cases answer <;> cases storing
  | panic => exact answer.elim
  | insert row => cases answer <;> cases storing
  | _ => cases storing

theorem advance_paying {phase : TurnPhase} {op : Call} {answer : Answer op} {r : RequestId} (allowed : phase.Allowed op)
    (paying : phase.advance op answer = .paying r) :
    (phase = .storing r ∨ phase = .paying r) ∧ ∀ job, op ≠ .trySendJob job := by
  cases allowed with
  | other apart => cases op <;> cases paying
  | store receipt =>
    cases answer with
    | error e => cases paying
    | ok =>
      cases paying
      exact ⟨.inl rfl, nofun⟩
  | panic => exact answer.elim
  | warm peer session =>
    cases paying
    exact ⟨.inr rfl, nofun⟩
  | mint =>
    cases paying
    exact ⟨.inr rfl, nofun⟩
  | insert row =>
    cases answer with
    | error e => cases paying
    | ok =>
      cases paying
      exact ⟨.inr rfl, nofun⟩
  | offer job => cases paying

include pool queue

theorem paying_of_settlesFor (run : Runs X (World.start loop archive ttl) trace m) (step : Step X m label n) {r : RequestId}
    (settles : label.settlesFor = some r) :
    turnPhase trace = .paying r ∧ ∃ op answer, label = .call .eventLoop op answer ∧ op.settles = true := by
  cases label with
  | call id op answer =>
    have performs := call_performs run step
    have allowed (own : id = .eventLoop) : (turnPhase trace).Allowed op := by
      subst own
      exact (turnTracking C).allowed (turn_obeyed pool queue run) step
    cases op with
    | insertPayment row =>
      cases settles
      cases id with
      | eventLoop =>
        have allowed := allowed rfl
        generalize turnPhase trace = phase at allowed
        cases allowed with
        | insert row => exact ⟨rfl, _, _, rfl, rfl⟩
        | other apart => cases apart
      | _ => cases performs
    | trySendJob job =>
      cases settles
      cases id with
      | eventLoop =>
        have allowed := allowed rfl
        generalize turnPhase trace = phase at allowed
        cases allowed with
        | offer job => exact ⟨rfl, _, _, rfl, rfl⟩
        | other apart => cases apart
      | _ => cases performs
    | _ => cases settles
  | _ => cases settles

theorem turn_of_step (run : Runs X (World.start loop archive ttl) trace m) (step : Step X m label n) {r : RequestId} :
    (turnPhase (trace ++ [(m, label)]) = .storing r → turnPhase trace = .storing r ∨ Consumes r (m, label)) ∧
      (turnPhase (trace ++ [(m, label)]) = .paying r →
        (turnPhase trace = .storing r ∨ turnPhase trace = .paying r) ∧ label.offers ≠ some r) := by
  have settles (offers : label.offers = some r) := paying_of_settlesFor pool queue run step (settlesFor_of_offers offers)
  rcases turnPhase_step pool queue run step with same | ⟨op, answer, rfl, allowed, moved⟩ | ⟨_, idle | ⟨sender, ack, channel,
    nowMs, rfl, verified, pays, storing⟩⟩
  · rw [same]
    refine ⟨.inl, fun paying => ⟨.inr paying, fun offers => ?_⟩⟩
    obtain ⟨_, op, answer, rfl, _⟩ := settles offers
    cases op with
    | trySendJob job =>
      have allowed := (turnTracking C).allowed (turn_obeyed pool queue run) step
      change (turnPhase trace).Allowed _ at allowed
      unfold turnPhase at same
      rw [Tracking.state_snoc, Tracking.next_call] at same
      change (turnPhase trace).advance _ _ = turnPhase trace at same
      rw [paying] at same
      cases same
    | _ => cases offers
  · rw [moved]
    refine ⟨fun storing => .inl (advance_storing allowed storing), fun paying => ?_⟩
    obtain ⟨earlier, other⟩ := advance_paying allowed paying
    refine ⟨earlier, fun offers => ?_⟩
    cases op with
    | trySendJob job => exact other job rfl
    | _ => cases offers
  · rw [idle]
    exact ⟨nofun, nofun⟩
  · rw [storing]
    refine ⟨fun same => ?_, nofun⟩
    cases same
    exact .inr ⟨sender, ack, channel, nowMs, rfl, rfl, verified, inFlight_of_computePayouts pays⟩

theorem OneTurn.step (run : Runs X (World.start loop archive ttl) trace m) (empty : ∀ r, loop.inFlight r = none)
    (once : (publishedIds (trace ++ [(m, label)])).Nodup) (step : Step X m label n) (kept : OneTurn trace m) :
    OneTurn (trace ++ [(m, label)]) n := by
  have grow {r : RequestId} (published : r ∈ publishedIds trace) : r ∈ publishedIds (trace ++ [(m, label)]) := by
    rw [publishedIds_append]
    exact List.mem_append_left _ published
  have stays {r : RequestId} (known : r ∈ publishedIds trace ∧ m.loop.inFlight r = none) :
      r ∈ publishedIds (trace ++ [(m, label)]) ∧ n.loop.inFlight r = none :=
    ⟨grow known.1, gone_for_good once step known.1 known.2⟩
  have consumed {r : RequestId} (consumes : Consumes r (m, label)) : m.loop.inFlight r ≠ none := by
    obtain ⟨_, _, _, _, _, _, _, present⟩ := consumes
    exact Option.isSome_iff_ne_none.mp present
  refine ⟨?_, ?_, ?_⟩
  · intro r touched
    rcases touched.of_snoc with old | settles
    · obtain ⟨published, gone, apart⟩ := kept.touched r old
      refine ⟨(stays ⟨published, gone⟩).1, (stays ⟨published, gone⟩).2, fun storing => ?_⟩
      rcases (turn_of_step pool queue run step).1 storing with same | consumes
      · exact apart same
      · exact consumed consumes gone
    · obtain ⟨paying, op, answer, rfl, _⟩ := paying_of_settlesFor pool queue run step settles
      obtain ⟨published, gone⟩ := stays (kept.turn r (.inr paying))
      refine ⟨published, gone, fun storing => ?_⟩
      rcases (turn_of_step pool queue run step).1 storing with same | ⟨_, _, _, _, shape, _⟩
      · rw [paying] at same
        cases same
      · cases shape
  · intro r offered paying
    obtain ⟨earlier, other⟩ := (turn_of_step pool queue run step).2 paying
    rcases offered.of_snoc with old | offers
    · rcases earlier with storing | paying
      · exact (kept.touched r old.touched).2.2 storing
      · exact kept.offered r old paying
    · exact other offers
  · intro r given
    rcases given with storing | paying
    · rcases (turn_of_step pool queue run step).1 storing with same | consumes
      · exact stays (kept.turn r (.inl same))
      · exact ⟨grow (inFlight_published run empty (consumed consumes)), consumes_clears step consumes⟩
    · exact stays (kept.turn r ((turn_of_step pool queue run step).2 paying).1)

end OneTurn

def SettlementPhase.Covers : SettlementPhase → PendingPayment → Prop
  | .working _ first rest, row => row ∈ first :: rest
  | .recording _ first _ rest, row => row ∈ first :: rest
  | .failing _ first rest, row => row ∈ first :: rest
  | .closing (.ok ()), _ => False
  | _, _ => True

theorem covers_resume {receipt : RoutingReceipt} {rows : List PendingPayment} {row : PendingPayment} (member : row ∈ rows) :
    (SettlementPhase.resume receipt rows).Covers row := by
  cases rows with
  | nil => cases member
  | cons first rest => exact member

theorem covers_marked {receipt : RoutingReceipt} {row : PendingPayment} {rows : List PendingPayment} {table : Payments}
    {change : Payment → Payment} {p : Payment} (marks : ∀ q, (change q).status ≠ .pending)
    (member : p ∈ table.update row.id change) (pending : p.status = .pending)
    (kept : p ∈ table → p.row ∈ row :: rows) : (SettlementPhase.resume receipt rows).Covers p.row := by
  rcases Payments.mem_update member with ⟨old, other⟩ | ⟨q, _, _, rfl⟩
  · rcases List.mem_cons.mp (kept old) with same | later
    · exact absurd (congrArg PendingPayment.id same) other
    · exact covers_resume later
  · exact absurd pending (marks q)

theorem covers_selected {rows : List PendingPayment} {row : PendingPayment} (member : row ∈ rows) :
    (SettlementPhase.selected X job rows).Covers row := by
  cases rows with
  | nil => cases member
  | cons first rest =>
    unfold SettlementPhase.selected
    cases X.receiptFromStr job.receiptJson with
    | error e => exact trivial
    | ok receipt => exact member

/-- The database neither turns a job away nor breaks off between the rows of one request, and the channel has
    room for every job. -/
def Unhindered (step : World C × Label) : Prop :=
  match step.2 with
  | .call _ (.trySendJob _) (.error _) => False
  | .call _ (.pushRequest _) (.error _) => False
  | .call _ (.insertPayment row) (.error _) => ∀ p ∈ step.1.payments, p.row.requestId = row.requestId → p.status ≠ .pending
  | _ => True

/-- Every pending row is attended to: by a job under way, or by the event loop, which is still at its request. -/
structure Attended (X : Externals) (trace : List (World C × Label)) (w : World C) : Prop where
  turns : OneTurn trace w
  rows : ∀ p ∈ w.payments, Touched trace p.row.requestId
  queued : ∀ job, Queued w job → Offered trace job.requestId
  running : ∀ k job, executionPhase X k job trace ≠ .ended → Offered trace job.requestId
  covered : ∀ k job, ∀ p ∈ w.payments, p.status = .pending → p.row.requestId = job.requestId →
    (executionPhase X k job trace).Covers p.row
  attended : ∀ p ∈ w.payments, p.status = .pending →
    (∃ job, job.requestId = p.row.requestId ∧ Waiting w job) ∨ turnPhase trace = .paying p.row.requestId

section Attended

variable (run : Runs X (World.start loop archive ttl) trace m) (step : Step X m label n)
include run step

omit run in
theorem rows_touched (kept : ∀ p ∈ m.payments, Touched trace p.row.requestId) :
    ∀ p ∈ n.payments, Touched (trace ++ [(m, label)]) p.row.requestId := by
  intro p member
  have grow {r : RequestId} (touched : Touched trace r) : Touched (trace ++ [(m, label)]) r :=
    touched.imp fun _ taken => ⟨List.mem_append_left _ taken.1, taken.2⟩
  rcases step_stores step with ⟨_, same, _, _⟩ | ⟨id, op, answer, next, m', rfl, _, answered, rfl⟩
  · rw [same] at member
    exact grow (kept p member)
  · rcases (perform_effect answered).payments p member with ⟨q, old, same⟩ | rfl
    · rw [← same]
      exact grow (kept q old)
    · exact ⟨_, List.mem_append_right _ (List.mem_singleton_self _), rfl⟩

theorem queued_offered (kept : ∀ job, Queued m job → Offered trace job.requestId) (queued : Queued n job) :
    Offered (trace ++ [(m, label)]) job.requestId := by
  rcases queued.of_step run step with old | ⟨id, rfl⟩
  · exact (kept job old).snoc
  · exact Offered.last rfl

theorem running_offered (queued : ∀ job, Queued m job → Offered trace job.requestId)
    (kept : ∀ k job, executionPhase X k job trace ≠ .ended → Offered trace job.requestId) {k : Nat}
    (running : executionPhase X k job (trace ++ [(m, label)]) ≠ .ended) :
    Offered (trace ++ [(m, label)]) job.requestId := by
  rcases executionPhase_step run step k job with same | ⟨op, answer, _, allowed, _⟩ | ⟨rfl, _⟩
  · rw [same] at running
    exact (kept k job running).snoc
  · refine (kept k job fun ended => ?_).snoc
    rw [ended] at allowed
    cases allowed
  · generalize shape : Label.execute k job = taken at step
    cases step with
    | execute free known =>
      cases shape
      exact (queued _ (.inr (.inr ⟨_, known, rfl⟩))).snoc
    | _ => cases shape

omit run in
theorem covered_call {k : Nat} {op : Call} {answer : Answer op} (own : label = .call (.settlement k job) op answer)
    (allowed : (executionPhase X k job trace).Allowed job op) {p : Payment} (member : p ∈ n.payments)
    (pending : p.status = .pending) (request : p.row.requestId = job.requestId)
    (kept : ∀ p ∈ m.payments, p.status = .pending → p.row.requestId = job.requestId →
      (executionPhase X k job trace).Covers p.row) :
    ((executionPhase X k job trace).advance X job op answer).Covers p.row := by
  subst own
  generalize executionPhase X k job trace = phase at allowed kept
  cases step with
  | @call m' _ _ next _ waiting answered =>
    change p ∈ m'.payments at member
    cases allowed with
    | select =>
      cases answer with
      | error e => exact trivial
      | ok rows =>
        have rows := selectPending_rows answered
        cases performed answered with
        | select requestId => exact covers_selected (Payments.pendingForRequest_of_mem member request pending)
        | silent quiet => cases quiet
    | settle =>
      cases answered
      have covered := kept p member pending request
      cases answer with
      | error e => exact covered
      | ok digest => exact covered
    | @submit receipt row digest rows =>
      cases answer with
      | error e => exact trivial
      | ok =>
        cases answered
        apply covers_marked _ member pending
        · intro old
          exact kept p old pending request
        · intro q unsettled
          cases unsettled
    | @fail receipt row rows =>
      cases answer with
      | error e => exact trivial
      | ok =>
        cases answered
        apply covers_marked _ member pending
        · intro old
          exact kept p old pending request
        · intro q unsettled
          cases unsettled
    | close => exact trivial

theorem inserted_paying (pool : loop.pgPool = true) (queue : loop.settlementTx = true) {id : TaskId} {row : PendingPayment}
    (own : label = .call id (.insertPayment row) (.ok ())) :
    turnPhase trace = .paying row.requestId ∧ turnPhase (trace ++ [(m, label)]) = .paying row.requestId := by
  subst own
  obtain ⟨paying, op, answer, shape, _⟩ := paying_of_settlesFor pool queue run step rfl
  cases shape
  refine ⟨paying, ?_⟩
  unfold turnPhase at paying ⊢
  rw [Tracking.state_snoc, Tracking.next_call, paying]
  rfl

theorem covered_step (pool : loop.pgPool = true) (queue : loop.settlementTx = true) (kept : Attended X trace m) (k : Nat)
    {p : Payment} (member : p ∈ n.payments) (pending : p.status = .pending) (request : p.row.requestId = job.requestId) :
    (executionPhase X k job (trace ++ [(m, label)])).Covers p.row := by
  rcases executionPhase_step run step k job with same | ⟨op, answer, own, allowed, moved⟩ | ⟨_, begun⟩
  · rw [same]
    rcases step_payment step member with old | ⟨_, id, inserted⟩ | ⟨submitted, _⟩ | ⟨failed, _⟩
    · exact kept.covered k job p old pending request
    · obtain ⟨paying, _⟩ := inserted_paying run step pool queue inserted
      by_cases ended : executionPhase X k job trace = .ended
      · rw [ended]
        exact trivial
      · have offered := kept.running k job ended
        rw [← request] at offered
        exact absurd paying (kept.turns.offered _ offered)
    · rw [pending] at submitted
      cases submitted
    · rw [pending] at failed
      cases failed
  · rw [moved]
    exact covered_call step own allowed member pending request fun q => kept.covered k job q
  · rw [begun]
    exact trivial

theorem unfinished_while_pending (kept : Attended X trace m) {p : Payment} (member : p ∈ m.payments)
    (pending : p.status = .pending) (request : p.row.requestId = job.requestId) {id : TaskId}
    (own : label = .call id (.jobResult job (.ok ())) ()) : False := by
  subst own
  have performs := call_performs run step
  cases id with
  | settlement k other =>
    have allowed := (executionTracking C X other).allowed (execution_obeyed run k other) step
    change (executionPhase X k other trace).Allowed other _ at allowed
    have covered := kept.covered k other p member pending
    generalize executionPhase X k other trace = phase at allowed covered
    cases allowed with
    | close => exact covered request
  | _ => cases performs

theorem attended_while_paying (pool : loop.pgPool = true) (queue : loop.settlementTx = true)
    (calm : Unhindered (m, label)) {p : Payment} (member : p ∈ m.payments) (pending : p.status = .pending)
    (paying : turnPhase trace = .paying p.row.requestId) :
    (∃ job, job.requestId = p.row.requestId ∧ Waiting n job) ∨
      turnPhase (trace ++ [(m, label)]) = .paying p.row.requestId := by
  rcases turnPhase_step pool queue run step with same | ⟨op, answer, rfl, allowed, moved⟩ | ⟨idle, _⟩
  · rw [same]
    exact .inr paying
  · rw [moved, paying]
    rw [paying] at allowed
    generalize whose : p.row.requestId = r at allowed
    cases allowed with
    | warm peer session => exact .inr rfl
    | mint => exact .inr rfl
    | insert row =>
      cases answer with
      | error e => exact absurd pending (calm p member whose)
      | ok => exact .inr rfl
    | offer job =>
      cases answer with
      | error e => exact calm.elim
      | ok =>
        refine .inl ⟨job, rfl, .inl ?_⟩
        cases step with
        | call waiting answered =>
          cases performed answered with
          | queued other room => exact List.mem_append_right _ (List.mem_singleton_self _)
          | silent quiet => cases quiet
  · rw [paying] at idle
    cases idle

theorem attended_step (pool : loop.pgPool = true) (queue : loop.settlementTx = true) (calm : Unhindered (m, label))
    (kept : Attended X trace m) {p : Payment} (member : p ∈ n.payments) (pending : p.status = .pending) :
    (∃ job, job.requestId = p.row.requestId ∧ Waiting n job) ∨
      turnPhase (trace ++ [(m, label)]) = .paying p.row.requestId := by
  rcases step_payment step member with old | ⟨_, id, inserted⟩ | ⟨submitted, _⟩ | ⟨failed, _⟩
  · rcases kept.attended p old pending with ⟨job, request, waiting⟩ | paying
    · rcases waiting.persists run step with still | ⟨id, e, rfl⟩ | ⟨id, finished⟩
      · exact .inl ⟨job, request, still⟩
      · exact calm.elim
      · exact (unfinished_while_pending run step kept old pending request.symm finished).elim
    · exact attended_while_paying run step pool queue calm old pending paying
  · exact .inr (inserted_paying run step pool queue inserted).2
  · rw [pending] at submitted
    cases submitted
  · rw [pending] at failed
    cases failed

theorem Attended.preserved (pool : loop.pgPool = true) (queue : loop.settlementTx = true) (empty : ∀ r, loop.inFlight r = none)
    (once : (publishedIds (trace ++ [(m, label)])).Nodup) (calm : Unhindered (m, label)) (kept : Attended X trace m) :
    Attended X (trace ++ [(m, label)]) n where
  turns := OneTurn.step pool queue run empty once step kept.turns
  rows := rows_touched step kept.rows
  queued _ := queued_offered run step kept.queued
  running _ _ := running_offered run step kept.queued kept.running
  covered k _ _ := covered_step run step pool queue kept k
  attended _ := attended_step run step pool queue calm kept

end Attended

theorem attended_reachable (pool : loop.pgPool = true) (queue : loop.settlementTx = true)
    (empty : ∀ r, loop.inFlight r = none) (run : Runs X (World.start loop archive ttl) trace w)
    (once : (publishedIds trace).Nodup) (calm : ∀ step ∈ trace, Unhindered step) : Attended X trace w := by
  refine run.history (I := Attended X) ?_ ?_
  · refine ⟨⟨?_, ?_, ?_⟩, ?_, ?_, ?_, ?_, ?_⟩
    · intro r given
      obtain ⟨_, member, _⟩ := given
      cases member
    · intro r given
      obtain ⟨_, member, _⟩ := given
      cases member
    · intro r given
      rcases given with storing | paying
      · cases storing
      · cases paying
    · intro p member
      cases member
    · intro job given
      rcases given with sent | ⟨next, held⟩ | ⟨stored, inside, _⟩
      · cases sent
      · cases held
      · cases inside
    · intro k job running
      exact absurd rfl running
    · intro k job p member
      cases member
    · intro p member
      cases member
  · intro before m label n run shape step kept
    have first : (publishedIds (before ++ [(m, label)])).Nodup :=
      once.sublist (shape.sublist.filterMap _)
    exact Attended.preserved run step pool queue empty first (calm _ (Run.last_mem shape)) kept

/-- Between two turns of the event loop, every request with a pending row has a job on its way. -/
theorem pending_payment_has_job (X : Externals) (key : C.SigningKey) (archive : ReceiptArchive) (ttl : UInt64)
    (trace : List (World C × Label)) (w : World C)
    (run : Runs X (World.start (EventLoop.new key true true) archive ttl) trace w)
    (once : (publishedIds trace).Nodup) (calm : ∀ step ∈ trace, Unhindered step)
    (idle : w.tasks .eventLoop = .done ()) :
    ∀ p ∈ w.payments, p.status = .pending → ∃ job, job.requestId = p.row.requestId ∧ Waiting w job := by
  intro p member pending
  rcases (attended_reachable rfl rfl (fun _ => rfl) run once calm).attended p member pending with waiting | paying
  · exact waiting
  · have obeyed := turn_obeyed rfl rfl run
    rw [idle] at obeyed
    change turnPhase trace = .idle at obeyed
    rw [paying] at obeyed
    cases obeyed

theorem unhindered_of_smooth {step : World C × Label} (smooth : step.2.mishap = false) : Unhindered step := by
  obtain ⟨m, label⟩ := step
  cases label with
  | call id op answer =>
    cases op with
    | insertPayment row =>
      cases answer with
      | error e => cases smooth
      | ok => exact trivial
    | trySendJob job =>
      cases answer with
      | error e => cases smooth
      | ok => exact trivial
    | pushRequest job =>
      cases answer with
      | error e => cases smooth
      | ok => exact trivial
    | _ => exact trivial
  | _ => exact trivial

theorem sample_row_has_job :
    let C := Primitives.marking []
    let X := Externals.serde (fun _ => none) fun text => .ok ⟨text⟩
    ∃ trace w, Runs X (World.start (EventLoop.new (C := C) (Vector.replicate 32 0) true true)
        (.postgres fun _ => none) 60000) trace w ∧
      (publishedIds trace).Nodup ∧ (∀ step ∈ trace, Unhindered step) ∧ w.tasks .eventLoop = .done () ∧
      ∃ p ∈ w.payments, p.status = .pending ∧ ∃ job, job.requestId = p.row.requestId ∧ Waiting w job := by
  intro C X
  obtain ⟨trace, w, _, receipt, run, published, smooth, _, _, _, _, _, pending, _, _, free⟩ :=
    reach_sample_queued X (Primitives.marking_correct []) (Vector.replicate 32 0)
  have once : (publishedIds trace).Nodup := by
    rw [published]
    exact List.nodup_singleton _
  have calm : ∀ step ∈ trace, Unhindered step := fun step member => unhindered_of_smooth (smooth step member)
  let p : Payment :=
    ⟨PayoutLine.row ⟨Vector.replicate 16 7⟩ receipt.requestId ⟨"12D3KooWPeerNode1", "0x0abc", 1000⟩, .pending, none⟩
  have member : p ∈ w.payments := by
    rw [pending]
    exact List.mem_singleton_self _
  exact ⟨trace, w, run, once, calm, free _, p, member, rfl,
    pending_payment_has_job X _ _ _ trace w run once calm (free _) p member rfl⟩

/-- The forwarding task has taken the job and the database turns the push away: the row stays pending,
    and no job for it is left anywhere. -/
theorem failed_push_strands_payment :
    let C := Primitives.marking []
    let X := Externals.serde (fun _ => none) fun text => .ok ⟨text⟩
    ∃ trace w, Runs X (World.start (EventLoop.new (C := C) (Vector.replicate 32 0) true true)
        (.postgres fun _ => none) 60000) trace w ∧
      (publishedIds trace).Nodup ∧ w.tasks .eventLoop = .done () ∧
      ∃ p ∈ w.payments, p.status = .pending ∧
        ∀ job, job.requestId = p.row.requestId → ¬ Queued w job ∧ ∀ k, w.tasks (.settlement k job) = .done () := by
  intro C X
  obtain ⟨before, w, _, receipt, left, published, _, _, _, _, _, _, pending, queued, storage, free⟩ :=
    reach_sample_queued X (Primitives.marking_correct []) (Vector.replicate 32 0)
  let job : SettlementJob := ⟨receipt.requestId, X.receiptToString receipt⟩
  let holding : World C := { w with jobs := [] }.setTask .forwarder (.call (.pushRequest job) fun _ => .done ())
  have last : Step X holding (.call .forwarder (.pushRequest job) (.error "connection reset"))
      (holding.setTask .forwarder (.done ())) := .call (World.setTask_same _ _ _) rfl
  let lost : World C := holding.setTask .forwarder (.done ())
  have ended (id : TaskId) : lost.tasks id = .done () := by
    by_cases own : id = .forwarder
    · subst own
      exact World.setTask_same _ _ _
    · simp only [lost, holding, World.setTask, Function.update_of_ne own, free]
  refine ⟨_, lost, left.append (.snoc (reach_held X w (free _) queued) last), ?_, ended _, _,
    show _ ∈ w.payments from pending ▸ List.mem_singleton_self _, rfl, ?_⟩
  · rw [publishedIds_append, published]
    exact List.nodup_singleton _
  · intro other _
    refine ⟨?_, fun k => ended _⟩
    intro given
    rcases given with sent | ⟨next, held⟩ | ⟨stored, inside, _⟩
    · cases sent
    · rw [ended] at held
      cases held
    · change stored ∈ w.storage at inside
      rw [storage] at inside
      cases inside

end Coordinator
