import Pinaivu.Async.Typestate
import Pinaivu.Protocol.Types

namespace Coordinator

open Protocol Async

inductive JobStatus where
  | dispatched
  | acked
  | completed
  | timedOut
  | refunded
  deriving DecidableEq, Repr

def JobStatus.asStr : JobStatus → String
  | .dispatched => "Dispatched"
  | .acked => "Acked"
  | .completed => "Completed"
  | .timedOut => "TimedOut"
  | .refunded => "Refunded"

structure DispatchJob where
  requestId : RequestId
  primaryPeerId : NodePeerId
  dispatchedAtMs : UInt64
  deadlineMs : UInt64
  status : JobStatus
  escrowHandleJson : String
  deriving DecidableEq

structure EscrowHandle where
  settlementId : String
  requestId : Uuid
  amountNanox : NanoX
  chainTxId : Option String
  payloadJson : String

structure JobRow where
  requestId : RequestId
  primaryPeerId : String
  dispatchedAtMs : Int64
  deadlineMs : Int64
  status : String
  escrowHandleJson : String

inductive JobCall where
  | now
  | insertJob (row : JobRow)
  | scheduleRequest (job : DispatchJob) (on : Int64)
  | selectStatus (requestId : RequestId)
  | updateStatus (requestId : RequestId) (status : String)
  | refundFunds (handle : EscrowHandle)

abbrev JobAnswer : JobCall → Type
  | .now => UInt64
  | .insertJob _ => Except String Unit
  | .scheduleRequest _ _ => Except String Unit
  | .selectStatus _ => Except String (Option String)
  | .updateStatus _ _ => Except String Unit
  | .refundFunds _ => Except String Unit

abbrev JobTask := Routine JobCall JobAnswer

def jobCall (op : JobCall) : JobTask (JobAnswer op) := .perform op

def pushJob (job : DispatchJob) : JobTask (Except String Unit) := do
  match ← jobCall (.insertJob ⟨job.requestId, job.primaryPeerId.value, job.dispatchedAtMs.toInt64,
      job.deadlineMs.toInt64, JobStatus.dispatched.asStr, job.escrowHandleJson⟩) with
  | .error e => return .error e
  | .ok () => jobCall (.scheduleRequest job (job.deadlineMs / 1000).toInt64)

def markCompleted (requestId : RequestId) : JobTask (Except String Unit) :=
  jobCall (.updateStatus requestId JobStatus.completed.asStr)

def readStatus (text : String) : Option JobStatus :=
  if text = "Dispatched" then some .dispatched
  else if text = "Acked" then some .acked
  else if text = "Completed" then some .completed
  else if text = "TimedOut" then some .timedOut
  else if text = "Refunded" then some .refunded
  else none

def getStatus (requestId : RequestId) : JobTask (Except String (Option JobStatus)) := do
  match ← jobCall (.selectStatus requestId) with
  | .error e => return .error e
  | .ok row => return .ok (row.bind readStatus)

def alreadyDone (row : Option String) : Bool :=
  (row.map fun s => s == "Completed" || s == "Refunded").getD false

section Watcher

variable (escrowFromStr : String → Option EscrowHandle)

def escrowHandle (job : DispatchJob) : EscrowHandle :=
  (escrowFromStr job.escrowHandleJson).getD ⟨"free", job.requestId, ⟨0⟩, none, "\x7b\x7d"⟩

/-- The refund of `handle_dispatch_timeout` and the statement that records it. -/
def fireRefund (job : DispatchJob) : JobTask (Except String Unit) := do
  match ← jobCall (.refundFunds (escrowHandle escrowFromStr job)) with
  | .error e => return .error e
  | .ok () => jobCall (.updateStatus job.requestId "Refunded")

/-- `handle_dispatch_timeout` once the deadline has been reached. -/
def refundUnlessDone (job : DispatchJob) : JobTask (Except String Unit) := do
  match ← jobCall (.selectStatus job.requestId) with
  | .error e => return .error e
  | .ok row => if alreadyDone row then return .ok () else fireRefund escrowFromStr job

def handleDispatchTimeout (job : DispatchJob) : JobTask (Except String Unit) := do
  let nowMs ← jobCall .now
  if nowMs < job.deadlineMs then return .ok () else refundUnlessDone escrowFromStr job

end Watcher

structure JobStore where
  rows : List JobRow
  scheduled : List (DispatchJob × Int64)

namespace JobStore

def status (store : JobStore) (requestId : RequestId) : Option String :=
  (store.rows.find? (·.requestId = requestId)).map (·.status)

def insert (store : JobStore) (row : JobRow) : JobStore :=
  if (store.rows.any (·.requestId = row.requestId)) then store else { store with rows := store.rows ++ [row] }

def setStatus (store : JobStore) (requestId : RequestId) (status : String) : JobStore :=
  { store with
    rows := store.rows.map fun row => if row.requestId = requestId then { row with status } else row }

/-- A statement that fails does nothing. -/
def effect (store : JobStore) : (op : JobCall) → JobAnswer op → JobStore → Prop
  | .insertJob row, .ok (), after => after = store.insert row
  | .scheduleRequest job on, .ok (), after => after = { store with scheduled := store.scheduled ++ [(job, on)] }
  | .selectStatus requestId, .ok row, after => row = store.status requestId ∧ after = store
  | .updateStatus requestId status, .ok (), after => after = store.setStatus requestId status
  | _, _, after => after = store

end JobStore

inductive JobTaskId where
  | push (k : Nat)
  | complete (k : Nat)
  | query (k : Nat)
  | timeout (k : Nat) (job : DispatchJob)
  deriving DecidableEq

/-- Anyone may push, complete or ask at any time; apalis runs what has been scheduled, any number of times. -/
inductive JobTaskId.Spawns (escrowFromStr : String → Option EscrowHandle) (store : JobStore) :
    JobTaskId → JobTask Unit → Prop where
  | push (k : Nat) (job : DispatchJob) :
      Spawns escrowFromStr store (.push k) ((pushJob job).bind fun _ => .done ())
  | complete (k : Nat) (requestId : RequestId) :
      Spawns escrowFromStr store (.complete k) ((markCompleted requestId).bind fun _ => .done ())
  | query (k : Nat) (requestId : RequestId) :
      Spawns escrowFromStr store (.query k) ((getStatus requestId).bind fun _ => .done ())
  | timeout (k : Nat) {job : DispatchJob} {on : Int64} (known : (job, on) ∈ store.scheduled) :
      Spawns escrowFromStr store (.timeout k job)
        ((handleDispatchTimeout escrowFromStr job).bind fun _ => .done ())

abbrev JobPool := Pool JobTaskId JobCall JobAnswer JobStore

abbrev JobLabel := Pool.Label JobTaskId JobCall JobAnswer

def JobPool.start : JobPool := ⟨fun _ => .done (), ⟨[], []⟩⟩

abbrev JobStep (escrowFromStr : String → Option EscrowHandle) : JobPool → JobLabel → JobPool → Prop :=
  Pool.Step (JobTaskId.Spawns escrowFromStr) JobStore.effect

abbrev JobRuns (escrowFromStr : String → Option EscrowHandle) (trace : List (JobPool × JobLabel))
    (p : JobPool) : Prop := Async.Run (JobStep escrowFromStr) JobPool.start trace p

namespace JobStore

theorem status_insert (store : JobStore) (row : JobRow) (r : RequestId) :
    (store.insert row).status r = store.status r ∨
      (store.status r = none ∧ (store.insert row).status r = some row.status) := by
  unfold insert
  split
  · exact .inl rfl
  · simp only [status, List.find?_append]
    cases found : store.rows.find? (·.requestId = r) with
    | some old => exact .inl rfl
    | none =>
      by_cases own : row.requestId = r
      · exact .inr ⟨rfl, by simp [own]⟩
      · exact .inl (by simp [own])

theorem status_insert_self (store : JobStore) (row : JobRow) : (store.insert row).status row.requestId ≠ none := by
  unfold insert
  split
  · rename_i found
    obtain ⟨old, member, same⟩ := List.any_eq_true.mp found
    simp only [status, ne_eq, Option.map_eq_none_iff, List.find?_eq_none]
    exact fun absent => absent old member same
  · simp [status, List.find?_append]

theorem status_setStatus (store : JobStore) (requestId r : RequestId) (status : String) :
    (store.setStatus requestId status).status r =
      if r = requestId then (store.status r).map fun _ => status else store.status r := by
  have kept : (fun row : JobRow => decide (row.requestId = r)) ∘
      (fun row => if row.requestId = requestId then { row with status } else row) =
      fun row => decide (row.requestId = r) := by
    funext row
    simp only [Function.comp]
    split <;> rfl
  simp only [JobStore.status, setStatus, List.find?_map, kept]
  cases found : store.rows.find? (·.requestId = r) with
  | none => split <;> rfl
  | some row =>
    have own : row.requestId = r := by simpa using List.find?_some found
    subst own
    by_cases same : row.requestId = requestId <;> simp [same]

end JobStore

end Coordinator
