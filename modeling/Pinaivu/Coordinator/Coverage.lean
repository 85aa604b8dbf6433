import Pinaivu.Coordinator.Tasks

namespace Coordinator

open Protocol Crypto Async

variable {C : Primitives} {X : Externals}

structure Accepted (trace : List (World C × Label)) (m : World C) (sender : PeerId)
    (ack : CompletionAck) (channel : Nat) (nowMs : UInt64) (receipt : RoutingReceipt) : Prop where
  delivered : (m, .event (.completion sender ack channel nowMs)) ∈ trace
  verified : Verified C ack
  signed : m.loop.receiptFor sender ack nowMs = some receipt
  stored : ∃ n id, (n, .call id (.putReceipt receipt) (.ok ())) ∈ trace

def RowOfAck (trace : List (World C × Label)) (row : PendingPayment) : Prop :=
  ∃ m sender ack channel nowMs receipt, Accepted trace m sender ack channel nowMs receipt ∧
    ∃ line ∈ computePayouts ack (m.loop.addressesFor ack.requestId), row = line.row row.id ack.requestId

def JobOfAck (X : Externals) (trace : List (World C × Label)) (job : SettlementJob) : Prop :=
  ∃ m sender ack channel nowMs receipt, Accepted trace m sender ack channel nowMs receipt ∧
    computePayouts ack (m.loop.addressesFor ack.requestId) ≠ [] ∧
    job = ⟨receipt.requestId, X.receiptToString receipt⟩

def Covered (C : Primitives) (job : SettlementJob) (receipt : RoutingReceipt) (payee : String)
    (amount : UInt64) : Prop :=
  receipt.requestId = job.requestId ∧ receipt.verify C = some (.ok ()) ∧
    ⟨payee, amount⟩ ∈ receipt.payouts

def passesOn (X : Externals) (trace : List (World C × Label)) (id : TaskId) : Call → Prop
  | .insertPayment row => RowOfAck trace row
  | .trySendJob job => JobOfAck X trace job
  | .pushRequest job => JobOfAck X trace job
  | .settle receipt payee amount => ∃ k job, id = .settlement k job ∧ Covered C job receipt payee amount
  | _ => True

def answersFrom (X : Externals) (trace : List (World C × Label)) : (op : Call) → Answer op → Prop
  | .putReceipt receipt, answer => answer = .ok () → ∃ n id, (n, .call id (.putReceipt receipt) (.ok ())) ∈ trace
  | .recvJob, job => JobOfAck X trace job
  | .selectPending requestId, answer => ∀ rows, answer = .ok rows → ∀ row ∈ rows,
      row.requestId = requestId ∧ RowOfAck trace row
  | _, _ => True

theorem plain_passesOn (trace : List (World C × Label)) (id : TaskId) (op : Call) (plain : op.plain) :
    passesOn X trace id op := by
  cases op with
  | insertPayment row => cases plain
  | trySendJob job => cases plain
  | pushRequest job => cases plain
  | settle receipt payee amount => cases plain
  | _ => exact trivial

/-- Rows, queued jobs and tasks all stem from accepted acks. -/
structure Stemming (X : Externals) (trace : List (World C × Label)) (w : World C) : Prop where
  payments : ∀ p ∈ w.payments, RowOfAck trace p.row
  jobs : ∀ job ∈ w.jobs, JobOfAck X trace job
  storage : ∀ stored ∈ w.storage, JobOfAck X trace stored.job
  tasks : TasksSat (passesOn X trace) (answersFrom X trace) w

section Run

variable {start : World C} {trace : List (World C × Label)} {w : World C}

theorem consumes_of_accepted {m : World C} {sender : PeerId} {ack : CompletionAck} {channel : Nat}
    {nowMs : UInt64} {receipt : RoutingReceipt} (accepted : Accepted trace m sender ack channel nowMs receipt)
    (pays : computePayouts ack (m.loop.addressesFor ack.requestId) ≠ []) :
    Consumes ack.requestId (m, .event (.completion sender ack channel nowMs)) :=
  ⟨sender, ack, channel, nowMs, rfl, rfl, accepted.verified, inFlight_of_computePayouts pays⟩

variable (run : Runs X start trace w) (fresh : ∀ r, start.loop.inFlight r = none)
  (once : (publishedIds trace).Nodup)
include run fresh once

theorem accepted_once {m n : World C} {sender other : PeerId} {ack again : CompletionAck}
    {channel channel' : Nat} {nowMs nowMs' : UInt64} {receipt receipt' : RoutingReceipt}
    (first : Accepted trace m sender ack channel nowMs receipt)
    (second : Accepted trace n other again channel' nowMs' receipt')
    (pays : computePayouts ack (m.loop.addressesFor ack.requestId) ≠ [])
    (pays' : computePayouts again (n.loop.addressesFor again.requestId) ≠ [])
    (same : ack.requestId = again.requestId) : m = n ∧ ack = again ∧ receipt = receipt' := by
  have left := consumes_of_accepted first pays
  have right := consumes_of_accepted second pays'
  rw [← same] at right
  have steps := consumed_once run fresh once first.delivered second.delivered left right
  rw [Prod.mk.injEq, Label.event.injEq, Event.completion.injEq] at steps
  rcases steps with ⟨rfl, rfl, rfl, _, rfl⟩
  refine ⟨rfl, rfl, ?_⟩
  have signed := first.signed
  rw [second.signed] at signed
  exact (Option.some.inj signed).symm

theorem covered_of_job (faithful : X.RoundTrip) (correct : C.Correct) {job : SettlementJob}
    (ofAck : JobOfAck X trace job) {receipt : RoutingReceipt}
    (parsed : X.receiptFromStr job.receiptJson = .ok receipt) {row : PendingPayment}
    (request : row.requestId = job.requestId) (rowOfAck : RowOfAck trace row) :
    Covered C job receipt row.payeeSuiAddress row.amountNanox.toUInt64 := by
  rcases ofAck with ⟨m, sender, ack, channel, nowMs, signedReceipt, accepted, pays, rfl⟩
  rw [faithful.text, Except.ok.injEq] at parsed
  subst receipt
  obtain ⟨named, _, payouts⟩ := receiptFor_eq_some accepted.signed
  rcases rowOfAck with ⟨n, other, again, channel', nowMs', receipt', accepted', line, member, shape⟩
  have requests : ack.requestId = again.requestId := by
    rw [shape] at request
    exact (request.trans named).symm
  have pays' : computePayouts again (n.loop.addressesFor again.requestId) ≠ [] := List.ne_nil_of_mem member
  obtain ⟨rfl, rfl, rfl⟩ := accepted_once run fresh once accepted accepted' pays pays' requests
  refine ⟨rfl, RoutingReceipt.verify_sign correct accepted.signed, ?_⟩
  rw [shape, payouts, PayoutLine.row_amount]
  exact List.mem_map.mpr ⟨line, member, rfl⟩

theorem begins_passesOn (faithful : X.RoundTrip) (correct : C.Correct) {m : World C} {label : Label}
    (member : (m, label) ∈ trace) (kept : Stemming X trace m) {id : TaskId} {task : Task Unit}
    (begun : Begins X m label id task) :
    task.Sat (passesOn X trace id) (answersFrom X trace) fun _ => True := by
  have plain := plain_passesOn (X := X) trace id
  cases begun with
  | serve k req =>
    exact serveChat_sat plain (fun _ _ _ => trivial) (fun _ _ _ => trivial)
      (fun _ _ _ _ _ _ _ => trivial) _ _ req
  | drop k => exact trivial
  | command command swarm => exact handleCommand_sat plain m.loop command swarm fun _ _ _ => trivial
  | event event =>
    apply handleEvent_sat plain m.loop event (fun _ _ _ _ _ _ _ _ _ => trivial)
    intro sender ack channel nowMs receipt shape verified signed
    subst shape
    refine ⟨trivial, fun stored => ?_⟩
    have accepted : Accepted trace m sender ack channel nowMs receipt :=
      ⟨member, verified, signed, stored rfl⟩
    obtain ⟨named, _, _⟩ := receiptFor_eq_some signed
    refine ⟨?_, fun pays => ⟨m, sender, ack, channel, nowMs, receipt, accepted, pays, rfl⟩⟩
    intro id line inside
    refine ⟨m, sender, ack, channel, nowMs, receipt, accepted, line, inside, ?_⟩
    rw [named]
    rfl
  | forward => exact forwardJob_sat plain fun job received => received
  | execute k stored known =>
    apply runSettlement_sat stored.job plain
    intro rows receipt selected parsed row inside
    obtain ⟨request, rowOfAck⟩ := selected rows rfl row inside
    exact ⟨k, stored.job, rfl,
      covered_of_job run fresh once faithful correct (kept.storage stored known) parsed request rowOfAck⟩

omit run fresh once in
theorem answered_from {m n : World C} {id : TaskId} {op : Call} {answer : Answer op}
    (member : (m, .call id op answer) ∈ trace) (kept : Stemming X trace m)
    (answered : m.perform X op answer = some n) : answersFrom X trace op answer := by
  cases op with
  | putReceipt receipt =>
    intro same
    subst same
    exact ⟨m, id, member⟩
  | recvJob => exact kept.jobs answer (recvJob_queued answered)
  | selectPending requestId =>
    intro rows same row inside
    subst same
    rw [selectPending_rows answered] at inside
    obtain ⟨request, p, stored, rfl⟩ := Payments.mem_pendingForRequest inside
    exact ⟨request, kept.payments p stored⟩
  | _ => exact trivial

theorem Stemming.step (faithful : X.RoundTrip) (correct : C.Correct) {m n : World C} {label : Label}
    (member : (m, label) ∈ trace) (step : Step X m label n) (kept : Stemming X trace m) :
    Stemming X trace n := by
  have tasks : TasksSat (passesOn X trace) (answersFrom X trace) n := by
    apply kept.tasks.step step
    · exact fun id task begun => begins_passesOn run fresh once faithful correct member kept begun
    · intro id op answer m' equal _ answered
      subst equal
      exact answered_from member kept answered
  rcases step_stores step with ⟨_, payments, jobs, storage⟩ | ⟨id, op, answer, next, m', rfl, waiting, answered, rfl⟩
  · refine ⟨?_, ?_, ?_, tasks⟩
    · rw [payments]
      exact kept.payments
    · rw [jobs]
      exact kept.jobs
    · rw [storage]
      exact kept.storage
  · have allowed := kept.tasks.guaranteed step
    have effect := perform_effect answered
    refine ⟨?_, ?_, ?_, tasks⟩
    · intro p inside
      rcases effect.payments p inside with ⟨q, before, same⟩ | rfl
      · rw [← same]
        exact kept.payments q before
      · exact allowed
    · intro job inside
      rcases effect.jobs job inside with before | rfl
      · exact kept.jobs job before
      · exact allowed
    · intro stored inside
      rcases effect.storage stored inside with ⟨known, before, same⟩ | rfl
      · rw [← same]
        exact kept.storage known before
      · exact allowed

end Run

/-- Every settle call of every worker carries its job's own signed receipt, and that receipt lists the
    payment; and the rows of one request all come from one accepted ack. -/
theorem settle_calls_covered (X : Externals) (faithful : X.RoundTrip) (correct : C.Correct)
    (key : C.SigningKey) (pgPool settlementTx : Bool) (archive : ReceiptArchive) (ttl : UInt64)
    (w : World C) (trace : List (World C × Label))
    (run : Runs X (World.start (EventLoop.new key pgPool settlementTx) archive ttl) trace w)
    (once : (publishedIds trace).Nodup) :
    (∀ m id receipt payee amount answer,
      (m, Label.call id (.settle receipt payee amount) answer) ∈ trace →
      ∃ k job, id = .settlement k job ∧ receipt.requestId = job.requestId ∧
        receipt.verify C = some (.ok ()) ∧ ⟨payee, amount⟩ ∈ receipt.payouts) ∧
    (∀ first ∈ w.payments, ∃ m sender ack channel nowMs receipt,
      Accepted trace m sender ack channel nowMs receipt ∧ ack.requestId = first.row.requestId ∧
      ∀ p ∈ w.payments, p.row.requestId = first.row.requestId →
        ∃ line ∈ computePayouts ack (m.loop.addressesFor ack.requestId),
          p.row = line.row p.row.id ack.requestId) := by
  have empty : Stemming X trace (World.start (EventLoop.new key pgPool settlementTx) archive ttl) :=
    ⟨by simp [World.start], by simp [World.start], by simp [World.start], fun _ => trivial⟩
  have keeps : ∀ m label n, (m, label) ∈ trace → Step X m label n → Stemming X trace m →
      Stemming X trace n :=
    fun m label n member step kept => kept.step run (fun _ => rfl) once faithful correct member step
  constructor
  · intro m id receipt payee amount answer member
    obtain ⟨n, step⟩ := run.step_of_mem member
    exact (run.invariant_at empty keeps member).tasks.guaranteed step
  · intro first inside
    have final := run.invariant empty keeps
    obtain ⟨m, sender, ack, channel, nowMs, receipt, accepted, line, paid, shape⟩ :=
      final.payments first inside
    have request : first.row.requestId = ack.requestId := by rw [shape]; rfl
    refine ⟨m, sender, ack, channel, nowMs, receipt, accepted, request.symm, ?_⟩
    intro p member same
    obtain ⟨n, other, again, channel', nowMs', receipt', accepted', line', paid', shape'⟩ :=
      final.payments p member
    have requests : ack.requestId = again.requestId := by
      rw [← request, ← same, shape']
      rfl
    obtain ⟨rfl, rfl, _⟩ := accepted_once run (fun _ => rfl) once accepted accepted'
      (List.ne_nil_of_mem paid) (List.ne_nil_of_mem paid') requests
    exact ⟨line', paid', shape'⟩

theorem afterPut_pool {self : EventLoop C} (pool : self.pgPool = true) (queue : self.settlementTx = true)
    (channel : Nat) (session : SessionId) (line : PayoutLine) {receipt : RoutingReceipt}
    (alone : receipt.helperPeerIds = []) :
    ∃ inserted : Uuid → Except String Unit → Task Unit,
      self.afterPut X channel (some session) [line] receipt (.ok ()) =
        .call (.upsertSessionCache receipt.primaryPeerId.value session) (fun _ =>
          .call .newUuid fun id => .call (.insertPayment (line.row id receipt.requestId)) (inserted id)) ∧
      ∀ id, inserted id (.ok ()) = .call (.trySendJob ⟨receipt.requestId, X.receiptToString receipt⟩)
        fun _ => .call (.sendResponse channel (.ok receipt)) .done := by
  have shape : ∃ queued : Except String Unit → Task Unit,
      self.afterPut X channel (some session) [line] receipt (.ok ()) =
        (EventLoop.markWarm session [receipt.primaryPeerId.value]).bind (fun _ =>
          ((insertPending receipt.requestId [line]).bind queued).bind fun _ =>
            call (.sendResponse channel (.ok receipt))) ∧
      queued (.ok ()) = (call (.trySendJob ⟨receipt.requestId, X.receiptToString receipt⟩)).bind fun _ =>
        .done () := by
    simp only [EventLoop.afterPut, EventLoop.warmNodes, EventLoop.queuePayments,
      EventLoop.enqueueSettlement, pool, queue, alone]
    exact ⟨_, rfl, rfl⟩
  obtain ⟨queued, shape, sends⟩ := shape
  rw [shape]
  refine ⟨_, rfl, ?_⟩
  intro id
  change ((queued (.ok ())).bind fun _ => call (.sendResponse channel (.ok receipt))) = _
  rw [sends]
  rfl

theorem reach_queued (X : Externals) (w : World C) (idle : w.tasks .eventLoop = .done ())
    (pool : w.loop.pgPool = true) (queue : w.loop.settlementTx = true) (payments : w.payments = [])
    (jobs : w.jobs = []) {ack : CompletionAck} (verified : Verified C ack) {sender : PeerId}
    (channel : Nat) {nowMs : UInt64} {receipt : RoutingReceipt}
    (signed : w.loop.receiptFor sender ack nowMs = some receipt) (alone : receipt.helperPeerIds = [])
    {session : SessionId} (known : w.loop.sessionFor ack.requestId = some session) {line : PayoutLine}
    (paid : computePayouts ack (w.loop.addressesFor ack.requestId) = [line]) (id : Uuid) :
    ∃ trace w', Runs X w trace w' ∧ publishedIds trace = [] ∧ (∀ step ∈ trace, step.2.mishap = false) ∧
      trace.filterMap (·.2.inserts) = [line.row id receipt.requestId] ∧
      w'.payments = [⟨line.row id receipt.requestId, .pending, none⟩] ∧
      w'.jobs = [⟨receipt.requestId, X.receiptToString receipt⟩] ∧ w'.storage = w.storage ∧
      w'.tasks .eventLoop = .done () ∧ ∀ other, other ≠ .eventLoop → w'.tasks other = w.tasks other := by
  let job : SettlementJob := ⟨receipt.requestId, X.receiptToString receipt⟩
  let row := line.row id receipt.requestId
  obtain ⟨inserted, behind, offering⟩ := afterPut_pool (X := X) pool queue channel session line alone
  let taken := w.notified X (.completion sender ack channel nowMs)
  have putting := notified_stores X w verified channel signed
  rw [known, paid] at putting
  let stored : World C := { taken with archive := taken.archive.put X receipt }.setTask .eventLoop
    (w.loop.afterPut X channel (some session) [line] receipt (.ok ()))
  have warming : stored.tasks .eventLoop = .call (.upsertSessionCache receipt.primaryPeerId.value session)
      (fun _ => .call .newUuid fun id =>
        .call (.insertPayment (line.row id receipt.requestId)) (inserted id)) := by
    rw [← behind]
    exact World.setTask_same _ _ _
  let warmed : World C := stored.setTask .eventLoop
    (.call .newUuid fun id => .call (.insertPayment (line.row id receipt.requestId)) (inserted id))
  let named : World C := warmed.setTask .eventLoop (.call (.insertPayment row) (inserted id))
  let rowed : World C := { named with payments := named.payments.insert row }.setTask .eventLoop
    (inserted id (.ok ()))
  have offers : rowed.tasks .eventLoop =
      .call (.trySendJob job) fun _ => .call (.sendResponse channel (.ok receipt)) .done := by
    rw [← offering id]
    exact World.setTask_same _ _ _
  have room : rowed.perform X (.trySendJob job) (.ok ()) =
      some { rowed with jobs := rowed.jobs ++ [job] } := by
    apply if_pos
    change w.jobs.length < jobCapacity
    rw [jobs]
    decide
  let offered : World C := { rowed with jobs := rowed.jobs ++ [job] }.setTask .eventLoop
    (.call (.sendResponse channel (.ok receipt)) .done)
  have first : Step X w (.event (.completion sender ack channel nowMs)) taken := .event idle
  have second : Step X taken (.call .eventLoop (.putReceipt receipt) (.ok ())) stored := .call putting rfl
  have third : Step X stored (.call .eventLoop
      (.upsertSessionCache receipt.primaryPeerId.value session) (.error "timeout")) warmed :=
    .call warming rfl
  have fourth : Step X warmed (.call .eventLoop .newUuid id) named :=
    .call (World.setTask_same _ _ _) rfl
  have fifth : Step X named (.call .eventLoop (.insertPayment row) (.ok ())) rowed :=
    .call (World.setTask_same _ _ _) rfl
  have sixth : Step X rowed (.call .eventLoop (.trySendJob job) (.ok ())) offered := .call offers room
  have seventh : Step X offered (.call .eventLoop (.sendResponse channel (.ok receipt)) ())
      (offered.setTask .eventLoop (.done ())) := .call (World.setTask_same _ _ _) rfl
  refine ⟨_, offered.setTask .eventLoop (.done ()), .cons first (.cons second (.cons third (.cons fourth
    (.cons fifth (.cons sixth (.one seventh)))))), rfl, ?_, rfl, ?_, ?_, rfl, World.setTask_same _ _ _, ?_⟩
  · simp [Label.mishap]
  · change w.payments.insert row = _
    rw [payments]
    rfl
  · change w.jobs ++ [job] = _
    rw [jobs]
    rfl
  · intro other different
    simp only [offered, rowed, named, warmed, stored, taken, World.notified, World.setTask,
      Function.update_of_ne different]

theorem runSettlement_single (X : Externals) (faithful : X.RoundTrip) (receipt : RoutingReceipt)
    (row : PendingPayment) :
    ∃ next, runSettlement X ⟨receipt.requestId, X.receiptToString receipt⟩ =
        .call (.selectPending receipt.requestId) next ∧
      ∃ after, next (.ok [row]) =
          .call (.settle receipt row.payeeSuiAddress row.amountNanox.toUInt64) after ∧
        (∀ digest, ∃ last, after (.ok digest) = .call (.markSubmitted row.id digest) last) ∧
        ∀ e, ∃ last, after (.error e) = .call (.markFailed row.id) last := by
  refine ⟨_, rfl, ?_⟩
  simp only [faithful.text]
  exact ⟨_, rfl, fun _ => ⟨_, rfl⟩, fun _ => ⟨_, rfl⟩⟩

theorem reach_held (X : Externals) (w : World C) (idle : w.tasks .forwarder = .done ()) {job : SettlementJob}
    (queued : w.jobs = [job]) :
    Runs X w [(w, .forward), (w.setTask .forwarder forwardJob, .call .forwarder .recvJob job)]
      ({ w with jobs := [] }.setTask .forwarder (.call (.pushRequest job) fun _ => .done ())) := by
  let forwarding : World C := w.setTask .forwarder forwardJob
  have received : forwarding.perform X .recvJob job = some { forwarding with jobs := [] } := by
    simp only [World.perform, forwarding, World.setTask, queued]
    rw [if_pos trivial]
  have first : Step X w .forward forwarding := .forward idle
  have second : Step X forwarding (.call .forwarder .recvJob job) ({ forwarding with jobs := [] }.setTask .forwarder
      (.call (.pushRequest job) fun _ => .done ())) := .call (World.setTask_same _ _ _) received
  have same : { forwarding with jobs := [] }.setTask .forwarder (.call (.pushRequest job) fun _ => .done ()) =
      { w with jobs := [] }.setTask .forwarder (.call (.pushRequest job) fun _ => .done ()) := by
    simp only [forwarding, World.setTask, Function.update_idem]
  rw [same] at second
  exact .cons first (.one second)

theorem reach_stored (X : Externals) (w : World C) (idle : w.tasks .forwarder = .done ()) {job : SettlementJob}
    (queued : w.jobs = [job]) :
    ∃ taking holding w', Runs X w [(w, .forward), (taking, .call .forwarder .recvJob job),
        (holding, .call .forwarder (.pushRequest job) (.ok ()))] w' ∧
      w'.payments = w.payments ∧ w'.storage = w.storage ++ [⟨job, false⟩] ∧ w'.tasks = w.tasks := by
  let holding : World C := { w with jobs := [] }.setTask .forwarder (.call (.pushRequest job) fun _ => .done ())
  let pushed : World C := { holding with
    storage := holding.storage ++ [(⟨job, false⟩ : StoredJob)] }.setTask .forwarder (.done ())
  have last : Step X holding (.call .forwarder (.pushRequest job) (.ok ())) pushed :=
    .call (World.setTask_same _ _ _) rfl
  refine ⟨_, holding, pushed, .snoc (reach_held X w idle queued) last, rfl, rfl, ?_⟩
  simp only [pushed, holding, World.setTask, Function.update_idem, ← idle, Function.update_eq_self]

theorem reach_working (X : Externals) (faithful : X.RoundTrip) (w : World C) (k : Nat) {receipt : RoutingReceipt}
    (free : w.tasks (.settlement k ⟨receipt.requestId, X.receiptToString receipt⟩) = .done ())
    (known : ⟨⟨receipt.requestId, X.receiptToString receipt⟩, false⟩ ∈ w.storage) {row : PendingPayment}
    (pending : w.payments = [⟨row, .pending, none⟩]) (request : row.requestId = receipt.requestId) :
    let id : TaskId := .settlement k ⟨receipt.requestId, X.receiptToString receipt⟩
    ∃ m after, Runs X w [(w, .execute k ⟨receipt.requestId, X.receiptToString receipt⟩),
        (m, .call id (.selectPending receipt.requestId) (.ok [row]))]
        (w.setTask id (.call (.settle receipt row.payeeSuiAddress row.amountNanox.toUInt64) after)) ∧
      (∀ digest, ∃ last, after (.ok digest) = .call (.markSubmitted row.id digest) last) ∧
      ∀ e, ∃ last, after (.error e) = .call (.markFailed row.id) last := by
  intro id
  let job : SettlementJob := ⟨receipt.requestId, X.receiptToString receipt⟩
  let working : World C := w.setTask id (runSettlement X job)
  have rows : working.perform X (.selectPending receipt.requestId) (.ok [row]) = some working := by
    apply if_pos
    change [row] = w.payments.pendingForRequest receipt.requestId
    simp [pending, Payments.pendingForRequest, request]
  have first : Step X w (.execute k job) working := .execute free known
  obtain ⟨next, selecting, after, settling, results⟩ := runSettlement_single X faithful receipt row
  have waiting : working.tasks id = .call (.selectPending receipt.requestId) next := by
    rw [← selecting]
    exact World.setTask_same _ _ _
  have second : Step X working (.call id (.selectPending receipt.requestId) (.ok [row]))
      (working.setTask id (next (.ok [row]))) := .call waiting rows
  refine ⟨working, after, ?_, results⟩
  rw [settling, World.setTask_setTask] at second
  exact .cons first (.one second)

theorem reach_settle (X : Externals) (faithful : X.RoundTrip) (w : World C)
    (others : ∀ id, w.tasks id = .done ()) {receipt : RoutingReceipt}
    (queued : w.jobs = [⟨receipt.requestId, X.receiptToString receipt⟩]) {row : PendingPayment}
    (pending : w.payments = [⟨row, .pending, none⟩]) (request : row.requestId = receipt.requestId)
    (digest : String) :
    ∃ trace w' m, Runs X w trace w' ∧ publishedIds trace = [] ∧
      (m, Label.call (.settlement 0 ⟨receipt.requestId, X.receiptToString receipt⟩)
        (.settle receipt row.payeeSuiAddress row.amountNanox.toUInt64) (.ok digest)) ∈ trace := by
  let job : SettlementJob := ⟨receipt.requestId, X.receiptToString receipt⟩
  obtain ⟨_, _, pushed, stored, payments, storage, tasks⟩ := reach_stored X w (others _) queued
  have known : (⟨job, false⟩ : StoredJob) ∈ pushed.storage := by
    rw [storage]
    exact List.mem_append_right _ (List.mem_singleton_self _)
  have free : pushed.tasks (.settlement 0 job) = .done () := by
    rw [tasks]
    exact others _
  obtain ⟨m, after, work, _⟩ := reach_working X faithful pushed 0 free known (payments.trans pending) request
  let selected : World C := pushed.setTask (.settlement 0 job)
    (.call (.settle receipt row.payeeSuiAddress row.amountNanox.toUInt64) after)
  have settle : Step X selected (.call (.settlement 0 job)
      (.settle receipt row.payeeSuiAddress row.amountNanox.toUInt64) (.ok digest))
      (selected.setTask (.settlement 0 job) (after (.ok digest))) := .call (World.setTask_same _ _ _) rfl
  refine ⟨_, _, selected, stored.append (.snoc work settle), rfl, ?_⟩
  exact List.mem_append_right _ (List.mem_append_right _ (List.mem_singleton_self _))

theorem reach_sample_receipt (X : Externals) (correct : C.Correct) (key : C.SigningKey) :
    ∃ trace w r receipt,
      Runs X (World.start (EventLoop.new key true true) (.postgres fun _ => none) 60000) trace w ∧
      publishedIds trace = [sampleRequest.requestId] ∧ (∀ step ∈ trace, step.2.mishap = false) ∧
      trace.filterMap (·.2.inserts) = w.payments.map (·.row) ∧ RoutingReceipt.sign C key r = some receipt ∧
      receipt.requestId = sampleRequest.requestId ∧ receipt.timestampMs = 1700000010000 ∧
      receipt.aggregatedOutputHash = Vector.replicate 32 9 ∧
      receipt.payouts = [⟨"0x0abc", 1000⟩] ∧
      w.payments = [⟨PayoutLine.row ⟨Vector.replicate 16 7⟩ receipt.requestId ⟨"12D3KooWPeerNode1", "0x0abc", 1000⟩,
        .pending, none⟩] ∧
      w.jobs = [⟨receipt.requestId, X.receiptToString receipt⟩] ∧ w.storage = [] ∧ ∀ id, w.tasks id = .done () := by
  obtain ⟨before, w, left, idle, _, pool, published, silent, flight, others, smooth, stores⟩ :=
    reach_sample X C key true true (.postgres fun _ => none)
  let ack := paidAck C key
  have verified : Verified C ack := paidAck_verified correct _
  obtain ⟨receipt, signed⟩ := receiptFor_isSome w.loop ⟨"12D3KooWPeerNode1"⟩ ack 1700000010000
    (show 1 < 2 ^ 31 by decide)
  obtain ⟨request, output, payouts⟩ := receiptFor_eq_some signed
  obtain ⟨_, _, shape⟩ := RoutingReceipt.sign_eq_some signed
  have alone : receipt.helperPeerIds = [] := by
    rw [shape]
    rfl
  have known : w.loop.sessionFor sampleRequest.requestId = some sampleRequest.sessionId := by
    rw [EventLoop.sessionFor, flight]
    rfl
  have paid : computePayouts ack (w.loop.addressesFor sampleRequest.requestId) =
      [⟨"12D3KooWPeerNode1", "0x0abc", 1000⟩] := by
    rw [EventLoop.addressesFor, flight]
    rfl
  obtain ⟨middle, m, queue, unpublished, calm, inserted, pending, queued, storage, done, untouched⟩ := reach_queued X w idle pool
    stores.settlementTx stores.payments stores.jobs verified 0 signed alone known paid ⟨Vector.replicate 16 7⟩
  have enclave : w.loop.enclaveKey = key := stores.enclaveKey
  rw [EventLoop.receiptFor, enclave] at signed
  refine ⟨before ++ middle, m, _, receipt, left.append queue, ?_, List.forall_mem_append.mpr ⟨smooth, calm⟩, ?_, signed,
    request, ?_, output, ?_, pending, queued, ?_, ?_⟩
  · rw [publishedIds_append, published, unpublished]
    rfl
  · have none : before.filterMap (·.2.inserts) = [] :=
      List.filterMap_eq_nil_iff.mpr fun step member => inserts_of_quiet (silent step member)
    rw [List.filterMap_append, none, inserted, pending]
    rfl
  · rw [shape]
    rfl
  · rw [payouts]
    change (computePayouts ack (w.loop.addressesFor sampleRequest.requestId)).map _ = _
    rw [paid]
    rfl
  · rw [storage, stores.storage]
    rfl
  · intro id
    by_cases own : id = .eventLoop
    · rw [own, done]
    · rw [untouched id own, others id own]

theorem reach_sample_queued (X : Externals) (correct : C.Correct) (key : C.SigningKey) :
    ∃ trace w r receipt,
      Runs X (World.start (EventLoop.new key true true) (.postgres fun _ => none) 60000) trace w ∧
      publishedIds trace = [sampleRequest.requestId] ∧ (∀ step ∈ trace, step.2.mishap = false) ∧
      trace.filterMap (·.2.inserts) = w.payments.map (·.row) ∧ RoutingReceipt.sign C key r = some receipt ∧
      receipt.requestId = sampleRequest.requestId ∧ receipt.timestampMs = 1700000010000 ∧
      receipt.payouts = [⟨"0x0abc", 1000⟩] ∧
      w.payments = [⟨PayoutLine.row ⟨Vector.replicate 16 7⟩ receipt.requestId ⟨"12D3KooWPeerNode1", "0x0abc", 1000⟩,
        .pending, none⟩] ∧
      w.jobs = [⟨receipt.requestId, X.receiptToString receipt⟩] ∧ w.storage = [] ∧ ∀ id, w.tasks id = .done () := by
  obtain ⟨trace, w, r, receipt, run, published, smooth, inserted, signed, request, timestamp, _, rest⟩ :=
    reach_sample_receipt X correct key
  exact ⟨trace, w, r, receipt, run, published, smooth, inserted, signed, request, timestamp, rest⟩

theorem sample_settle_covered :
    let C := Primitives.marking []
    let X := Externals.serde (fun _ => none) fun text => .ok ⟨text⟩
    ∃ trace w m k job receipt payee amount digest,
      Runs X (World.start (EventLoop.new (C := C) (Vector.replicate 32 0) true true)
        (.postgres fun _ => none) 60000) trace w ∧
      (m, Label.call (.settlement k job) (.settle receipt payee amount) (.ok digest)) ∈ trace ∧
      receipt.requestId = job.requestId ∧ receipt.verify C = some (.ok ()) ∧
      ⟨payee, amount⟩ ∈ receipt.payouts := by
  intro C X
  have faithful : X.RoundTrip := Externals.serde_roundTrip _ _
  have correct : C.Correct := Primitives.marking_correct _
  obtain ⟨before, m, _, receipt, left, published, _, _, _, _, _, _, pending, queued, _, free⟩ :=
    reach_sample_queued X correct (Vector.replicate 32 0)
  obtain ⟨after, w', n, settle, unpublished, member⟩ := reach_settle X faithful m free queued pending rfl "5xJ"
  have run := left.append settle
  have once : (publishedIds (before ++ after)).Nodup := by
    rw [publishedIds_append, published, unpublished]
    exact List.nodup_singleton _
  have inside := List.mem_append_right before member
  obtain ⟨k, job, same, request, signature, listed⟩ :=
    (settle_calls_covered X faithful correct _ true true _ _ w' _ run once).1 n _ _ _ _ _ inside
  rw [TaskId.settlement.injEq] at same
  rcases same with ⟨rfl, rfl⟩
  exact ⟨_, w', n, 0, _, receipt, _, _, "5xJ", run, inside, request, signature, listed⟩

end Coordinator
