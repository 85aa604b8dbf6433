import Pinaivu.Coordinator.Books
import Pinaivu.Coordinator.Stranded

namespace Coordinator

open Protocol Crypto Async

variable {C : Primitives} {X : Externals} {loop : EventLoop C} {archive : ReceiptArchive} {ttl : UInt64}
  {w m n : World C} {trace : List (World C × Label)} {label : Label}

def sent : (Σ op, Answer op) → Option SettlementJob
  | ⟨.trySendJob job, .ok ()⟩ => some job
  | _ => none

def received : (Σ op, Answer op) → Option SettlementJob
  | ⟨.recvJob, job⟩ => some job
  | _ => none

def attempted : (Σ op, Answer op) → Option SettlementJob
  | ⟨.pushRequest job, _⟩ => some job
  | _ => none

def pushed : (Σ op, Answer op) → Option SettlementJob
  | ⟨.pushRequest job, .ok ()⟩ => some job
  | _ => none

def inHand : Task Unit → List SettlementJob
  | .call (.pushRequest job) _ => [job]
  | _ => []

theorem step_channel (step : Step X m label n) : (label.called.bind received).toList ++ n.jobs =
    m.jobs ++ (label.called.bind sent).toList := by
  cases step with
  | cancel k =>
    rw [(dropChat_keeps m k).2.2.2.2.1]
    exact (List.append_nil _).symm
  | @call w'' id op next answer waiting answered =>
    change _ ++ w''.jobs = _
    cases performed answered with
    | silent quiet =>
      cases op with
      | trySendJob job => cases quiet
      | recvJob => cases quiet
      | _ => exact (List.append_nil _).symm
    | queued job room => rfl
    | taken job rest first =>
      rw [first]
      exact (List.append_nil _).symm
    | _ => exact (List.append_nil _).symm
  | _ => exact (List.append_nil _).symm

theorem step_hand (run : Runs X (World.start loop archive ttl) trace m) (step : Step X m label n) :
    (label.called.bind attempted).toList ++ inHand (n.tasks .forwarder) =
      inHand (m.tasks .forwarder) ++ (label.called.bind received).toList := by
  have idle (calls : ∀ op answer, label ≠ .call .forwarder op answer) :
      label.called.bind attempted = none ∧ label.called.bind received = none := by
    cases label with
    | call id op answer =>
      have performs := call_performs run step
      by_contra some
      have own : id = .forwarder := by
        cases op with
        | recvJob => cases id <;> first | rfl | cases performs
        | pushRequest job => cases id <;> first | rfl | cases performs
        | _ => exact absurd ⟨rfl, rfl⟩ some
      exact calls op answer (own ▸ rfl)
    | _ => exact ⟨rfl, rfl⟩
  rcases step_starts step .forwarder with ⟨other, ⟨_, same⟩ | ⟨_, begun⟩⟩ | ⟨op, next, answer, _, rfl, waiting, _, moved⟩
  · obtain ⟨unpushed, unreceived⟩ := idle other
    rw [same, unpushed, unreceived]
    exact (List.append_nil _).symm
  · obtain ⟨unpushed, unreceived⟩ := idle other
    rw [unpushed, unreceived]
    generalize n.tasks .forwarder = task at begun
    cases begun with
    | forward =>
      cases step with
      | forward free => rw [free]; rfl
  · rw [moved]
    rcases forwarder_shape run with free | taking | ⟨job, holding⟩
    · rw [free] at waiting
      cases waiting
    · rw [taking] at waiting ⊢
      cases waiting
      rfl
    · rw [holding] at waiting ⊢
      cases waiting
      rfl

theorem step_storage (step : Step X m label n) : [] ++ n.storage.map (·.job) =
    m.storage.map (·.job) ++ (label.called.bind pushed).toList := by
  rw [List.nil_append]
  cases step with
  | cancel k =>
    rw [(dropChat_keeps m k).2.2.2.2.2]
    exact (List.append_nil _).symm
  | @call w'' id op next answer waiting answered =>
    change w''.storage.map _ = _
    cases performed answered with
    | silent quiet =>
      cases op with
      | pushRequest job =>
        cases answer with
        | ok => cases quiet
        | error e => exact (List.append_nil _).symm
      | _ => exact (List.append_nil _).symm
    | pushed job =>
      rw [List.map_append]
      rfl
    | finished job =>
      rw [List.map_map]
      refine Eq.trans ?_ (List.append_nil _).symm
      apply List.map_congr_left
      intro stored _
      simp only [Function.comp]
      split <;> rfl
    | _ => exact (List.append_nil _).symm
  | _ => exact (List.append_nil _).symm

/-- Of the jobs the channel has taken, the oldest are in the queue or were refused there, the next may be in the
    hands of the forwarding task, and the others wait. -/
theorem jobs_placed (run : Runs X (World.start loop archive ttl) trace w) :
    (callsMade trace).filterMap sent =
        (callsMade trace).filterMap attempted ++ inHand (w.tasks .forwarder) ++ w.jobs ∧
      (callsMade trace).filterMap pushed = w.storage.map (·.job) := by
  have kind (kind : (Σ op, Answer op) → Option SettlementJob) :
      (callsMade trace).filterMap kind = trace.filterMap fun taken => taken.2.called.bind kind :=
    List.filterMap_filterMap
  have channel := run.fifo World.jobs (·.called.bind sent) (·.called.bind received) rfl
    fun _ _ _ _ _ step => step_channel step
  have hand := run.fifo (fun w => inHand (w.tasks .forwarder)) (·.called.bind received) (·.called.bind attempted) rfl
    fun _ _ _ _ run step => step_hand run step
  have storage := run.fifo (List.map StoredJob.job ∘ World.storage) (·.called.bind pushed) (fun _ => none) rfl
    fun _ _ _ _ _ step => step_storage step
  rw [kind sent, kind attempted, kind pushed, channel, hand, storage]
  simp

theorem offered_of_sent (made : Σ op, Answer op) (job : SettlementJob) (taken : sent made = some job) :
    offered made = some job := by
  obtain ⟨op, answer⟩ := made
  cases op with
  | trySendJob job =>
    cases answer with
    | ok => exact taken
    | error e => cases taken
  | _ => cases taken

theorem attempted_of_pushed (made : Σ op, Answer op) (job : SettlementJob) (taken : pushed made = some job) :
    attempted made = some job := by
  obtain ⟨op, answer⟩ := made
  cases op with
  | pushRequest job =>
    cases answer with
    | ok => exact taken
    | error e => cases taken
  | _ => cases taken

theorem smooth_calls (smooth : ∀ step ∈ trace, step.2.mishap = false) :
    (callsMade trace).filterMap sent = (callsMade trace).filterMap offered ∧
      (callsMade trace).filterMap pushed = (callsMade trace).filterMap attempted := by
  have each : ∀ made ∈ callsMade trace, sent made = offered made ∧ pushed made = attempted made := by
    intro made member
    obtain ⟨⟨m, label⟩, inside, called⟩ := List.mem_filterMap.mp member
    have calm := smooth _ inside
    cases label with
    | call id op answer =>
      cases called
      cases op with
      | trySendJob job =>
        cases answer with
        | ok => exact ⟨rfl, rfl⟩
        | error e => cases calm
      | pushRequest job =>
        cases answer with
        | ok => exact ⟨rfl, rfl⟩
        | error e => cases calm
      | _ => exact ⟨rfl, rfl⟩
    | _ => cases called
  exact ⟨List.filterMap_congr fun made member => (each made member).1,
    List.filterMap_congr fun made member => (each made member).2⟩

theorem jobs_in_full (run : Runs X (World.start loop archive ttl) trace w) (idle : w.tasks .eventLoop = .done ())
    (pool : loop.pgPool = true) (queue : loop.settlementTx = true) (smooth : ∀ step ∈ trace, step.2.mishap = false) :
    w.storage.map (·.job) ++ inHand (w.tasks .forwarder) ++ w.jobs =
      ((archivedReceipts trace).filter payable).map (settlementJob X) := by
  obtain ⟨placed, stored⟩ := jobs_placed run
  obtain ⟨offers, pushes⟩ := smooth_calls smooth
  calc w.storage.map (·.job) ++ inHand (w.tasks .forwarder) ++ w.jobs
      = (callsMade trace).filterMap sent := by rw [placed, ← pushes, stored]
    _ = (callsMade trace).filterMap offered := offers
    _ = ((archivedReceipts trace).filter payable).map (settlementJob X) :=
      ((run_booked run idle).2 pool (insertsSucceed_of_smooth smooth)).jobs queue

theorem queued_due (run : Runs X (World.start loop archive ttl) trace w) (idle : w.tasks .eventLoop = .done ()) :
    (w.storage.map (·.job) ++ inHand (w.tasks .forwarder) ++ w.jobs).Sublist
      (((archivedReceipts trace).filter payable).map (settlementJob X)) := by
  obtain ⟨placed, stored⟩ := jobs_placed run
  have pushes := filterMap_sublist attempted_of_pushed (callsMade trace)
  rw [stored] at pushes
  have kept : (w.storage.map (·.job) ++ inHand (w.tasks .forwarder) ++ w.jobs).Sublist
      ((callsMade trace).filterMap sent) := by
    rw [placed]
    exact (pushes.append_right _).append_right _
  exact (kept.trans (filterMap_sublist offered_of_sent _)).trans (run_booked run idle).1.jobs

/-- The settlement jobs stored, on their way and waiting are, in this order, jobs of the archived receipts with
    payouts: each receipt's job is in one of these places at most once, and in exactly one of them unless it
    has been turned away. -/
theorem settlement_jobs_in_order (X : Externals) (loop : EventLoop C) (archive : ReceiptArchive) (ttl : UInt64)
    (w : World C) (trace : List (World C × Label)) (run : Runs X (World.start loop archive ttl) trace w)
    (idle : w.tasks .eventLoop = .done ()) :
    let due := ((archivedReceipts trace).filter payable).map (settlementJob X)
    let queued := w.storage.map (·.job) ++ inHand (w.tasks .forwarder) ++ w.jobs
    queued.Sublist due ∧
      (loop.pgPool = true → loop.settlementTx = true → (∀ step ∈ trace, step.2.mishap = false) → queued = due) := by
  intro due queued
  exact ⟨queued_due run idle, fun pool queue smooth => jobs_in_full run idle pool queue smooth⟩

theorem sample_job_on_its_way :
    let C := Primitives.marking []
    let X := Externals.serde (fun _ => none) fun text => .ok ⟨text⟩
    ∃ (trace : List (World C × Label)) (w : World C) (receipt : RoutingReceipt),
      Runs X (World.start (EventLoop.new (Vector.replicate 32 0) true true) (.postgres fun _ => none) 60000) trace w ∧
      receipt.requestId = sampleRequest.requestId ∧ inHand (w.tasks .forwarder) = [settlementJob X receipt] ∧
      ((archivedReceipts trace).filter payable).map (settlementJob X) = [settlementJob X receipt] := by
  intro C X
  obtain ⟨before, m, _, receipt, left, _, smooth, _, _, request, _, _, _, queued, stored, free⟩ :=
    reach_sample_queued X (Primitives.marking_correct []) (Vector.replicate 32 0)
  let job : SettlementJob := ⟨receipt.requestId, X.receiptToString receipt⟩
  let taking : List (World C × Label) := [(m, .forward), (m.setTask .forwarder forwardJob, .call .forwarder .recvJob job)]
  let w : World C := { m with jobs := [] }.setTask .forwarder (.call (.pushRequest job) fun _ => .done ())
  have run : Runs X _ (before ++ taking) w := left.append (reach_held X m (free _) queued)
  have calm : ∀ step ∈ before ++ taking, step.2.mishap = false :=
    List.forall_mem_append.mpr ⟨smooth, by simp [taking, Label.mishap]⟩
  have idle : w.tasks .eventLoop = .done () := by
    rw [← free .eventLoop]
    exact World.setTask_other (by decide) _
  have hand : inHand (w.tasks .forwarder) = [settlementJob X receipt] := by
    rw [World.setTask_same]
    rfl
  have all := (settlement_jobs_in_order X _ _ _ w _ run idle).2 rfl rfl calm
  refine ⟨_, w, receipt, run, request, hand, ?_⟩
  rw [← all, hand]
  change m.storage.map _ ++ _ ++ [] = _
  rw [stored]
  rfl

end Coordinator
