import Pinaivu.Async.Evaluation
import Pinaivu.Coordinator.DispatchJobs

namespace Coordinator

open Protocol Async

variable {escrowFromStr : String → Option EscrowHandle} {job : DispatchJob} {store store' : JobStore}
  {calls : List (Σ op, JobAnswer op)} {result : Except String Unit} {t : UInt64}

def Acted (calls : List (Σ op, JobAnswer op)) (result : Except String Unit) : Prop :=
  (∃ handle answer, ⟨.refundFunds handle, answer⟩ ∈ calls) ∨ ∃ e, result = .error e

/-- At any time apalis may run the job, its one run does not pass over a job that is still open. -/
def MeetsDeadline (escrowFromStr : String → Option EscrowHandle) (job : DispatchJob) : Prop :=
  ∀ (before after : JobStore) (pushCalls : List (Σ op, JobAnswer op)) (on : Int64) (t : UInt64)
    (store store' : JobStore) (calls : List (Σ op, JobAnswer op)) (result : Except String Unit),
    Routine.Evaluates JobStore.effect (pushJob job) before pushCalls (.ok ()) after →
    ⟨.scheduleRequest job on, .ok ()⟩ ∈ pushCalls → 1000 * on.toInt ≤ t.toNat →
    alreadyDone (store.status job.requestId) = false →
    Routine.Evaluates JobStore.effect (handleDispatchTimeout escrowFromStr job) store (⟨.now, t⟩ :: calls) result store' →
    Acted calls result

theorem scheduled_second (deadlineMs : UInt64) : (deadlineMs / 1000).toInt64.toInt = (deadlineMs.toNat / 1000 : Nat) := by
  have value : (deadlineMs / 1000).toBitVec.toNat = deadlineMs.toNat / 1000 := UInt64.toNat_div deadlineMs 1000
  have small : 2 * (deadlineMs / 1000).toBitVec.toNat < 2 ^ 64 := by
    have bound := deadlineMs.toNat_lt
    omega
  change (deadlineMs / 1000).toBitVec.toInt = _
  rw [BitVec.toInt_eq_toNat_of_lt small, value]

theorem pushJob_schedules {pushCalls : List (Σ op, JobAnswer op)} {on : Int64}
    (pushed : Routine.Evaluates JobStore.effect (pushJob job) store pushCalls result store')
    (scheduled : ⟨.scheduleRequest job on, .ok ()⟩ ∈ pushCalls) : on = (job.deadlineMs / 1000).toInt64 := by
  cases pushed with
  | @call _ _ answer _ _ _ _ _ given rest =>
    cases answer with
    | error e =>
      cases rest
      simp at scheduled
    | ok =>
      cases rest with
      | call given rest =>
        cases rest
        have made := scheduled
        simp only [List.mem_cons, List.not_mem_nil, or_false] at made
        rcases made with inserted | made
        · cases inserted
        · cases made
          rfl

theorem refund_after_deadline (late : job.deadlineMs ≤ t) (undone : alreadyDone (store.status job.requestId) = false)
    (evaluated : Routine.Evaluates JobStore.effect (handleDispatchTimeout escrowFromStr job) store (⟨.now, t⟩ :: calls)
      result store') : Acted calls result := by
  cases evaluated with
  | call given rest =>
    cases given
    change Routine.Evaluates _ (if t < job.deadlineMs then _ else _ : JobTask _) _ _ _ _ at rest
    rw [if_neg (UInt64.not_lt.mpr late)] at rest
    cases rest with
    | @call _ _ answer _ _ _ _ _ given rest =>
      cases answer with
      | error e =>
        cases rest
        exact .inr ⟨e, rfl⟩
      | ok row =>
        obtain ⟨rfl, rfl⟩ := given
        change Routine.Evaluates _ (if alreadyDone _ then _ else _ : JobTask _) _ _ _ _ at rest
        rw [if_neg (by rw [undone]; exact nofun)] at rest
        cases rest with
        | @call _ _ answer _ _ _ _ _ given rest =>
          exact .inl ⟨_, answer, List.mem_cons_of_mem _ List.mem_cons_self⟩

theorem ok_before_deadline (escrowFromStr : String → Option EscrowHandle) (store : JobStore)
    (early : t < job.deadlineMs) :
    Routine.Evaluates JobStore.effect (handleDispatchTimeout escrowFromStr job) store [⟨.now, t⟩] (.ok ()) store := by
  refine .call rfl ?_
  change Routine.Evaluates _ (if t < job.deadlineMs then _ else _ : JobTask _) _ _ _ _
  rw [if_pos early]
  exact .done

theorem pushJob_evaluates (store : JobStore) (job : DispatchJob) :
    ∃ calls after, Routine.Evaluates JobStore.effect (pushJob job) store calls (.ok ()) after ∧
      ⟨.scheduleRequest job (job.deadlineMs / 1000).toInt64, .ok ()⟩ ∈ calls := by
  have pushed : Routine.Evaluates JobStore.effect (pushJob job) store [⟨.insertJob _, .ok ()⟩, ⟨.scheduleRequest job _, .ok ()⟩]
      (.ok ()) _ := .call rfl (.call rfl .done)
  exact ⟨_, _, pushed, List.mem_cons_of_mem _ List.mem_cons_self⟩

/-- No firing time is missed exactly when the deadline is a whole number of seconds. -/
theorem refund_deadline_met_iff (escrowFromStr : String → Option EscrowHandle) (job : DispatchJob) :
    MeetsDeadline escrowFromStr job ↔ job.deadlineMs.toNat % 1000 = 0 := by
  constructor
  · intro meets
    by_contra odd
    have bound := job.deadlineMs.toNat_lt
    have truncated : (UInt64.ofNat (1000 * (job.deadlineMs.toNat / 1000))).toNat = 1000 * (job.deadlineMs.toNat / 1000) := by
      apply UInt64.toNat_ofNat_of_lt'
      change _ < 2 ^ 64
      omega
    let t := UInt64.ofNat (1000 * (job.deadlineMs.toNat / 1000))
    have early : t < job.deadlineMs := by
      rw [UInt64.lt_iff_toNat_lt, truncated]
      omega
    obtain ⟨calls, after, pushed, scheduled⟩ := pushJob_evaluates ⟨[], []⟩ job
    have due : 1000 * (job.deadlineMs / 1000).toInt64.toInt ≤ t.toNat := by
      rw [scheduled_second, truncated]
      omega
    rcases meets _ _ _ _ t ⟨[], []⟩ _ [] _ pushed scheduled due rfl (ok_before_deadline _ _ early) with
      ⟨_, _, called⟩ | ⟨e, failed⟩
    · cases called
    · cases failed
  · intro whole before after pushCalls on t store store' calls result pushed scheduled due undone evaluated
    refine refund_after_deadline ?_ undone evaluated
    rw [pushJob_schedules pushed scheduled, scheduled_second] at due
    rw [UInt64.le_iff_toNat_le]
    omega

def sampleJob : DispatchJob where
  requestId := ⟨Vector.replicate 16 0⟩
  primaryPeerId := ⟨"12D3KooWPeerNode1"⟩
  dispatchedAtMs := 1700000000500
  deadlineMs := 1700000060500
  status := .dispatched
  escrowHandleJson := "\x7b\x7d"

/-- The job is scheduled for the second 1700000060 and run half a second before its deadline. -/
theorem rounded_deadline_missed :
    ∃ (calls : List (Σ op, JobAnswer op)) (pushed : JobStore),
      Routine.Evaluates JobStore.effect (pushJob sampleJob) ⟨[], []⟩ calls (.ok ()) pushed ∧
      (sampleJob, 1700000060) ∈ pushed.scheduled ∧ 1000 * (1700000060 : Int64).toInt ≤ (1700000060000 : UInt64).toNat ∧
      pushed.status sampleJob.requestId = some "Dispatched" ∧
      Routine.Evaluates JobStore.effect (handleDispatchTimeout (fun _ => none) sampleJob) pushed [⟨.now, 1700000060000⟩]
        (.ok ()) pushed := by
  have pushed : Routine.Evaluates JobStore.effect (pushJob sampleJob) ⟨[], []⟩
      [⟨.insertJob _, .ok ()⟩, ⟨.scheduleRequest sampleJob _, .ok ()⟩] (.ok ()) _ := .call rfl (.call rfl .done)
  exact ⟨_, _, pushed, List.mem_singleton_self _, by decide, rfl, ok_before_deadline _ _ (by decide)⟩

end Coordinator
