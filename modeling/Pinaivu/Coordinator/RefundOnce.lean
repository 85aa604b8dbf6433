import Pinaivu.Coordinator.DispatchJobs

namespace Coordinator

open Protocol Async

inductive JobPhase where
  | before
  | inserted (requestId : RequestId)
  | checked
  | refunded
  | ended
  deriving DecidableEq

inductive JobTaskId.Allowed : JobTaskId → JobPhase → JobCall → Prop where
  | insert {k : Nat} {row : JobRow} (fresh : row.status = "Dispatched") :
      Allowed (.push k) .before (.insertJob row)
  | schedule {k : Nat} {job : DispatchJob} {on : Int64} :
      Allowed (.push k) (.inserted job.requestId) (.scheduleRequest job on)
  | complete {k : Nat} {requestId : RequestId} :
      Allowed (.complete k) .before (.updateStatus requestId "Completed")
  | query {k : Nat} {requestId : RequestId} : Allowed (.query k) .before (.selectStatus requestId)
  | now {k : Nat} {job : DispatchJob} : Allowed (.timeout k job) .before .now
  | check {k : Nat} {job : DispatchJob} : Allowed (.timeout k job) .before (.selectStatus job.requestId)
  | refund {k : Nat} {job : DispatchJob} {handle : EscrowHandle} :
      Allowed (.timeout k job) .checked (.refundFunds handle)
  | record {k : Nat} {job : DispatchJob} :
      Allowed (.timeout k job) .refunded (.updateStatus job.requestId "Refunded")

def JobPhase.advance : JobPhase → (op : JobCall) → JobAnswer op → JobPhase
  | phase, .now, _ => phase
  | _, .insertJob row, .ok () => .inserted row.requestId
  | _, .refundFunds _, .ok () => .refunded
  | _, _, _ => .ended

def JobTaskId.advance : JobTaskId → JobPhase → (op : JobCall) → JobAnswer op → JobPhase
  | .timeout _ _, _, .selectStatus _, .ok row => if alreadyDone row then .ended else .checked
  | _, phase, op, answer => phase.advance op answer

def JobTaskId.typestate (id : JobTaskId) : Typestate JobCall JobAnswer JobPhase where
  allowed := id.Allowed
  advance := id.advance

def JobTaskId.Ends : JobTaskId → JobPhase → Prop
  | .timeout _ _, phase => phase = .before ∨ phase = .ended
  | _, phase => phase = .ended

variable {escrowFromStr : String → Option EscrowHandle}

theorem fireRefund_obeys (k : Nat) (job : DispatchJob) :
    (fireRefund escrowFromStr job).Obeys (JobTaskId.timeout k job).typestate
      (fun s _ => (JobTaskId.timeout k job).Ends s) .checked := by
  refine ⟨.refund, fun paid => ?_⟩
  cases paid with
  | error e => exact .inr rfl
  | ok => exact ⟨.record, fun _ => .inr rfl⟩

theorem handleDispatchTimeout_obeys (k : Nat) (job : DispatchJob) :
    (handleDispatchTimeout escrowFromStr job).Obeys (JobTaskId.timeout k job).typestate
      (fun s _ => (JobTaskId.timeout k job).Ends s) .before := by
  refine ⟨.now, fun nowMs => ?_⟩
  change Routine.Obeys _ _ (if nowMs < job.deadlineMs then _ else _ : JobTask _) JobPhase.before
  split
  · exact .inl rfl
  · refine ⟨.check, fun answer => ?_⟩
    cases answer with
    | error e => exact .inr rfl
    | ok row =>
      change Routine.Obeys _ _ (if alreadyDone row then _ else _ : JobTask _)
        (if alreadyDone row then JobPhase.ended else JobPhase.checked)
      split
      · exact .inr rfl
      · exact fireRefund_obeys k job

theorem spawns_obeys (store : JobStore) (id : JobTaskId) (task : JobTask Unit)
    (known : JobTaskId.Spawns escrowFromStr store id task) :
    task.Obeys id.typestate (fun s _ => id.Ends s) .before := by
  cases known with
  | push k job =>
    refine ⟨.insert rfl, fun answer => ?_⟩
    cases answer with
    | error e => rfl
    | ok => exact ⟨.schedule, fun _ => rfl⟩
  | complete k requestId => exact ⟨.complete, fun _ => rfl⟩
  | query k requestId =>
    refine ⟨.query, fun answer => ?_⟩
    cases answer <;> rfl
  | @timeout k job on known => exact (handleDispatchTimeout_obeys k job).seq fun _ _ ended => ended

/-- The life of one request's job: unsettled, checked by one execution, paid back but not yet marked,
    refunded, or completed, with how often a refund succeeded and a completion was committed. -/
inductive Lifecycle (pending : JobTaskId → Option JobPhase) : Nat → Nat → Option String → Prop where
  | unsettled {status : Option String} (idle : ∀ id, pending id = none) (undone : alreadyDone status = false) :
      Lifecycle pending 0 0 status
  | checked {status : Option String} {id : JobTaskId} (own : pending id = some .checked)
      (idle : ∀ other ≠ id, pending other = none) (undone : alreadyDone status = false) :
      Lifecycle pending 0 0 status
  | paid {status : Option String} {id : JobTaskId} (own : pending id = some .refunded)
      (idle : ∀ other ≠ id, pending other = none) (undone : alreadyDone status = false) :
      Lifecycle pending 1 0 status
  | refunded (idle : ∀ id, pending id = none) : Lifecycle pending 1 0 (some "Refunded")
  | completed {completions : Nat} (idle : ∀ id, pending id = none) :
      Lifecycle pending 0 (completions + 1) (some "Completed")

namespace Lifecycle

variable {pending : JobTaskId → Option JobPhase} {refunds completions : Nat} {status : Option String}
  {id : JobTaskId}

theorem update_idle {phase : Option JobPhase} (idle : ∀ other ≠ id, pending other = none) :
    ∀ other ≠ id, Function.update pending id phase other = none := by
  intro other apart
  rw [Function.update_of_ne apart]
  exact idle other apart

theorem update_none (idle : ∀ other ≠ id, pending other = none) (other : JobTaskId) :
    Function.update pending id none other = none := by
  by_cases own : other = id
  · subst other
    rw [Function.update_self]
  · exact update_idle idle other own

theorem others_none {first : JobTaskId} {phase : JobPhase} (own : pending id = some phase)
    (idle : ∀ other ≠ first, pending other = none) : first = id := by
  by_contra apart
  rw [idle id (Ne.symm apart)] at own
  cases own

theorem begin_refund (life : Lifecycle pending refunds completions status) (undone : alreadyDone status = false)
    (others : ∀ other ≠ id, pending other = none) (free : pending id = none) :
    Lifecycle (Function.update pending id (some .checked)) refunds completions status := by
  have none_pending (other : JobTaskId) : pending other = none := by
    by_cases own : other = id
    · rw [own, free]
    · exact others other own
  cases life with
  | unsettled idle _ => exact .checked (Function.update_self _ _ _) (update_idle others) undone
  | checked own _ _ => exact absurd (none_pending _) (by rw [own]; nofun)
  | paid own _ _ => exact absurd (none_pending _) (by rw [own]; nofun)
  | refunded idle => cases undone
  | completed idle => cases undone

theorem at_check (life : Lifecycle pending refunds completions status) (own : pending id = some .checked) :
    refunds = 0 ∧ completions = 0 ∧ alreadyDone status = false ∧ ∀ other ≠ id, pending other = none := by
  cases life with
  | unsettled idle _ => rw [idle] at own; cases own
  | checked _ idle undone =>
    obtain rfl := others_none own idle
    exact ⟨rfl, rfl, undone, idle⟩
  | paid at_paid idle undone =>
    obtain rfl := others_none own idle
    rw [at_paid] at own
    cases own
  | refunded idle => rw [idle] at own; cases own
  | completed idle => rw [idle] at own; cases own

theorem at_payment (life : Lifecycle pending refunds completions status) (own : pending id = some .refunded) :
    refunds = 1 ∧ completions = 0 ∧ ∀ other ≠ id, pending other = none := by
  cases life with
  | unsettled idle _ => rw [idle] at own; cases own
  | checked at_check idle undone =>
    obtain rfl := others_none own idle
    rw [at_check] at own
    cases own
  | paid _ idle undone =>
    obtain rfl := others_none own idle
    exact ⟨rfl, rfl, idle⟩
  | refunded idle => rw [idle] at own; cases own
  | completed idle => rw [idle] at own; cases own

theorem complete (life : Lifecycle pending refunds completions status) (idle : ∀ id, pending id = none)
    (open_status : status ≠ some "Refunded") :
    Lifecycle pending refunds (completions + 1) (some "Completed") := by
  cases life with
  | unsettled _ _ => exact .completed idle
  | checked own _ _ => rw [idle] at own; cases own
  | paid own _ _ => rw [idle] at own; cases own
  | refunded _ => exact absurd rfl open_status
  | completed _ => exact .completed idle

theorem restatus {after : Option String} (life : Lifecycle pending refunds completions status)
    (fresh : status = none) (undone : alreadyDone after = false) :
    Lifecycle pending refunds completions after := by
  subst fresh
  cases life with
  | unsettled idle _ => exact .unsettled idle undone
  | checked own idle _ => exact .checked own idle undone
  | paid own idle _ => exact .paid own idle undone

theorem refunds_le (life : Lifecycle pending refunds completions status) : refunds ≤ 1 := by
  cases life <;> decide

theorem of_completions (life : Lifecycle pending refunds completions status) (some_done : completions ≠ 0) :
    refunds = 0 ∧ status = some "Completed" := by
  cases life with
  | completed _ => exact ⟨rfl, rfl⟩
  | _ => exact absurd rfl some_done

theorem refunds_of_status (life : Lifecycle pending refunds completions status)
    (marked : status = some "Refunded") : refunds = 1 := by
  cases life with
  | unsettled _ undone => subst marked; cases undone
  | checked _ _ undone => subst marked; cases undone
  | completed _ => exact absurd marked (by decide)
  | _ => rfl

theorem completions_of_status (life : Lifecycle pending refunds completions status)
    (marked : status = some "Completed") : completions ≠ 0 := by
  cases life with
  | unsettled _ undone => subst marked; cases undone
  | checked _ _ undone => subst marked; cases undone
  | paid _ _ undone => subst marked; cases undone
  | refunded _ => exact absurd marked (by decide)
  | completed _ => exact Nat.succ_ne_zero _

end Lifecycle

def JobTaskId.serves (r : RequestId) : JobTaskId → Bool
  | .timeout _ job => job.requestId = r
  | _ => false

def JobTaskId.pastCheck (r : RequestId) (id : JobTaskId) : JobTask Unit → Bool
  | .call (.refundFunds _) _ => id.serves r
  | .call (.updateStatus _ _) _ => id.serves r
  | _ => false

def JobTaskId.Orderly (r : RequestId) (p : JobPool) : JobTaskId → (op : JobCall) → JobAnswer op → Prop
  | .timeout k job, .selectStatus _, _ => job.requestId = r → alreadyDone (p.shared.status r) = false →
      ∀ other ≠ JobTaskId.timeout k job, other.pastCheck r (p.tasks other) = false
  | .timeout _ job, .updateStatus _ _, answer => job.requestId = r → answer = .ok ()
  | .complete _, .updateStatus requestId _, _ => requestId = r →
      (∃ status, p.shared.status r = some status ∧ status ≠ "Refunded") ∧
        ∀ other : JobTaskId, other.pastCheck r (p.tasks other) = false
  | _, _, _ => True

/-- No execution for `r` is past its check when another one finds the status unsettled or when `r` is
    completed, only a known and unrefunded job is completed, and a refund that succeeded is recorded. -/
def Orderly (r : RequestId) (taken : JobPool × JobLabel) : Prop :=
  match taken.2 with
  | .spawn _ _ => True
  | .call id op answer => id.Orderly r taken.1 op answer

def refundCalled (r : RequestId) : JobLabel → Bool
  | .call id (.refundFunds _) _ => id.serves r
  | _ => false

def refundSucceeded (r : RequestId) : JobLabel → Bool
  | .call id (.refundFunds _) (.ok ()) => id.serves r
  | _ => false

def completionCommitted (r : RequestId) : JobLabel → Bool
  | .call (.complete _) (.updateStatus requestId _) (.ok ()) => requestId = r
  | _ => false

def refunds (r : RequestId) (trace : List (JobPool × JobLabel)) : Nat :=
  trace.countP fun taken => refundSucceeded r taken.2

def completions (r : RequestId) (trace : List (JobPool × JobLabel)) : Nat :=
  trace.countP fun taken => completionCommitted r taken.2

theorem refunds_snoc (r : RequestId) (trace : List (JobPool × JobLabel)) (p : JobPool) (label : JobLabel) :
    refunds r (trace ++ [(p, label)]) = refunds r trace + if refundSucceeded r label then 1 else 0 := by
  simp only [refunds, List.countP_append, List.countP_singleton]

theorem completions_snoc (r : RequestId) (trace : List (JobPool × JobLabel)) (p : JobPool) (label : JobLabel) :
    completions r (trace ++ [(p, label)]) =
      completions r trace + if completionCommitted r label then 1 else 0 := by
  simp only [completions, List.countP_append, List.countP_singleton]

def JobPhase.underway : JobPhase → Option JobPhase
  | .checked => some .checked
  | .refunded => some .refunded
  | _ => none

def pending (r : RequestId) (g : JobTaskId → JobPhase) (id : JobTaskId) : Option JobPhase :=
  if id.serves r then (g id).underway else none

theorem pending_update (r : RequestId) (g : JobTaskId → JobPhase) (id : JobTaskId) (phase : JobPhase) :
    pending r (Function.update g id phase) =
      Function.update (pending r g) id (if id.serves r then phase.underway else none) := by
  funext other
  by_cases own : other = id
  · subst other
    simp only [pending, Function.update_self]
  · simp only [pending, Function.update_of_ne own]

theorem pending_update_same {r : RequestId} {g : JobTaskId → JobPhase} {id : JobTaskId} {phase : JobPhase}
    (same : id.serves r = true → phase.underway = (g id).underway) :
    pending r (Function.update g id phase) = pending r g := by
  rw [pending_update, Function.update_eq_self_iff, pending]
  split
  · rename_i own
    rw [same own]
  · rfl

theorem pending_foreign {r : RequestId} {g : JobTaskId → JobPhase} {id : JobTaskId} {phase : JobPhase}
    (foreign : id.serves r = false) : pending r (Function.update g id phase) = pending r g := by
  apply pending_update_same
  intro serves
  rw [foreign] at serves
  cases serves

theorem not_pending {r : RequestId} {g : JobTaskId → JobPhase} {id : JobTaskId} {task : JobTask Unit}
    (obeys : task.Obeys id.typestate (fun s _ => id.Ends s) (g id)) (idle : id.pastCheck r task = false) :
    pending r g id = none := by
  cases own : id.serves r with
  | false => rw [pending, own, if_neg Bool.false_ne_true]
  | true =>
    cases id with
    | timeout k job =>
      rw [pending, if_pos own]
      cases phase : g (.timeout k job) with
      | checked =>
        rw [phase] at obeys
        cases task with
        | done => exact obeys.elim nofun nofun
        | call op next =>
          cases obeys.1
          rw [JobTaskId.pastCheck, own] at idle
          cases idle
      | refunded =>
        rw [phase] at obeys
        cases task with
        | done => exact obeys.elim nofun nofun
        | call op next =>
          cases obeys.1
          rw [JobTaskId.pastCheck, own] at idle
          cases idle
      | _ => rfl
    | _ => cases own

theorem JobStore.effect_keeps_row {store after : JobStore} {op : JobCall} {answer : JobAnswer op}
    (effect : store.effect op answer after) {r : RequestId} (known : store.status r ≠ none) :
    after.status r ≠ none := by
  cases op with
  | now => subst effect; exact known
  | insertJob row =>
    cases answer with
    | error e => subst effect; exact known
    | ok =>
      subst effect
      rcases store.status_insert row r with same | ⟨fresh, _⟩
      · rwa [same]
      · exact absurd fresh known
  | scheduleRequest job on => cases answer <;> subst effect <;> exact known
  | selectStatus requestId =>
    cases answer with
    | error e => subst effect; exact known
    | ok row => obtain ⟨_, rfl⟩ := effect; exact known
  | updateStatus requestId status =>
    cases answer with
    | error e => subst effect; exact known
    | ok =>
      subst effect
      rw [store.status_setStatus]
      split
      · simpa using known
      · exact known
  | refundFunds handle => cases answer <;> subst effect <;> exact known

theorem JobStore.effect_scheduled {store after : JobStore} {op : JobCall} {answer : JobAnswer op}
    (effect : store.effect op answer after) {job : DispatchJob} {on : Int64} (known : (job, on) ∈ after.scheduled) :
    (job, on) ∈ store.scheduled ∨ op = .scheduleRequest job on := by
  cases op with
  | now => subst effect; exact .inl known
  | insertJob row =>
    cases answer with
    | error e => subst effect; exact .inl known
    | ok =>
      subst effect
      unfold JobStore.insert at known
      split at known <;> exact .inl known
  | scheduleRequest other time =>
    cases answer with
    | error e => subst effect; exact .inl known
    | ok =>
      subst effect
      rcases List.mem_append.mp known with member | last
      · exact .inl member
      · cases List.mem_singleton.mp last
        exact .inr rfl
  | selectStatus requestId =>
    cases answer with
    | error e => subst effect; exact .inl known
    | ok row => obtain ⟨_, rfl⟩ := effect; exact .inl known
  | updateStatus requestId status => cases answer <;> subst effect <;> exact .inl known
  | refundFunds handle => cases answer <;> subst effect <;> exact .inl known

structure Recorded (g : JobTaskId → JobPhase) (store : JobStore) : Prop where
  scheduled : ∀ job on, (job, on) ∈ store.scheduled → store.status job.requestId ≠ none
  inserted : ∀ id requestId, g id = .inserted requestId → store.status requestId ≠ none
  running : ∀ k job, g (.timeout k job) ≠ .ended → store.status job.requestId ≠ none

theorem Recorded.call {g : JobTaskId → JobPhase} {store after : JobStore} {id : JobTaskId} {op : JobCall}
    {answer : JobAnswer op} (recorded : Recorded g store) (allowed : id.Allowed (g id) op)
    (effect : store.effect op answer after) :
    Recorded (Function.update g id (id.advance (g id) op answer)) after := by
  refine ⟨fun job on known => ?_, fun other requestId at_insert => ?_, fun k job active => ?_⟩
  · rcases store.effect_scheduled effect known with old | rfl
    · exact store.effect_keeps_row effect (recorded.scheduled job on old)
    · refine store.effect_keeps_row effect (recorded.inserted id _ ?_)
      generalize g id = at_phase at allowed ⊢
      cases allowed
      rfl
  · by_cases own : other = id
    · subst other
      rw [Function.update_self] at at_insert
      generalize g id = at_phase at allowed at_insert
      cases allowed with
      | @insert k row fresh =>
        cases answer with
        | error e => cases at_insert
        | ok =>
          cases at_insert
          subst effect
          exact store.status_insert_self row
      | check =>
        cases answer with
        | error e => cases at_insert
        | ok row =>
          simp only [JobTaskId.advance] at at_insert
          split at at_insert <;> cases at_insert
      | now => cases at_insert
      | _ => cases answer <;> cases at_insert
    · rw [Function.update_of_ne own] at at_insert
      exact store.effect_keeps_row effect (recorded.inserted other requestId at_insert)
  · refine store.effect_keeps_row effect (recorded.running k job ?_)
    by_cases own : JobTaskId.timeout k job = id
    · subst id
      intro ended
      rw [ended] at allowed
      cases allowed
    · rwa [Function.update_of_ne own] at active

def Lifecycle.Continues (r : RequestId) (g : JobTaskId → JobPhase) (refunds completions : Nat) (id : JobTaskId)
    (op : JobCall) (answer : JobAnswer op) (after : JobStore) : Prop :=
  Lifecycle (pending r (Function.update g id (id.advance (g id) op answer)))
    (refunds + if refundSucceeded r (.call id op answer) then 1 else 0)
    (completions + if completionCommitted r (.call id op answer) then 1 else 0) (after.status r)

section Calls

variable {r : RequestId} {g : JobTaskId → JobPhase} {store after : JobStore} {refunds completions : Nat}

theorem Lifecycle.committed (life : Lifecycle (pending r g) refunds completions (store.status r)) {k : Nat}
    {requestId : RequestId} {answer : Except String Unit}
    (effect : store.effect (.updateStatus requestId "Completed") answer after)
    (settled : requestId = r → (∃ status, store.status r = some status ∧ status ≠ "Refunded") ∧
      ∀ other, pending r g other = none) :
    Continues r g refunds completions (.complete k) (.updateStatus requestId "Completed") answer after := by
  unfold Continues
  rw [pending_foreign rfl]
  cases answer with
  | error e => subst effect; exact life
  | ok =>
    subst effect
    rw [store.status_setStatus]
    by_cases own : requestId = r
    · subst requestId
      obtain ⟨⟨status, found, unrefunded⟩, quiet⟩ := settled rfl
      have committed : completionCommitted r (.call (.complete k) (.updateStatus r "Completed") (.ok ())) := by
        simp [completionCommitted]
      rw [if_pos rfl, if_pos committed, found]
      refine life.complete quiet ?_
      rw [found]
      exact fun marked => unrefunded (Option.some.inj marked)
    · have elsewhere : completionCommitted r
          (.call (.complete k) (.updateStatus requestId "Completed") (.ok ())) = false := by
        simp [completionCommitted, own]
      rw [if_neg (Ne.symm own)]
      simpa [elsewhere, refundSucceeded] using life

variable {k : Nat} {job : DispatchJob}

theorem Lifecycle.passed_check (life : Lifecycle (pending r g) refunds completions (store.status r))
    {answer : Except String (Option String)} (phase : g (.timeout k job) = .before)
    (effect : store.effect (.selectStatus job.requestId) answer after)
    (alone : job.requestId = r → alreadyDone (store.status r) = false →
      ∀ other ≠ JobTaskId.timeout k job, pending r g other = none) :
    Continues r g refunds completions (.timeout k job) (.selectStatus job.requestId) answer after := by
  unfold Continues
  cases answer with
  | error e =>
    rw [pending_update_same fun _ => by rw [phase]; rfl]
    subst effect
    exact life
  | ok row =>
    obtain ⟨rfl, rfl⟩ := effect
    simp only [JobTaskId.advance]
    by_cases done : alreadyDone (after.status job.requestId) = true
    · rw [if_pos done, pending_update_same fun _ => by rw [phase]; rfl]
      exact life
    · rw [if_neg done]
      by_cases own : job.requestId = r
      · subst r
        have undone : alreadyDone (after.status job.requestId) = false := by simpa using done
        have serves : (JobTaskId.timeout k job).serves job.requestId := by simp [JobTaskId.serves]
        rw [pending_update, if_pos serves]
        refine life.begin_refund undone (alone rfl undone) ?_
        rw [pending, if_pos serves, phase]
        rfl
      · rw [pending_foreign (by simp [JobTaskId.serves, own])]
        exact life

theorem Lifecycle.refund_called (life : Lifecycle (pending r g) refunds completions (store.status r))
    {handle : EscrowHandle} {answer : Except String Unit} (phase : g (.timeout k job) = .checked)
    (effect : store.effect (.refundFunds handle) answer after) :
    Continues r g refunds completions (.timeout k job) (.refundFunds handle) answer after := by
  unfold Continues
  by_cases own : job.requestId = r
  · subst r
    have serves : (JobTaskId.timeout k job).serves job.requestId := by simp [JobTaskId.serves]
    have at_check : pending job.requestId g (.timeout k job) = some .checked := by
      rw [pending, if_pos serves, phase]
      rfl
    obtain ⟨rfl, rfl, undone, others⟩ := life.at_check at_check
    rw [pending_update, if_pos serves]
    cases answer with
    | error e =>
      subst effect
      exact .unsettled (update_none others) undone
    | ok =>
      subst effect
      have paid : refundSucceeded job.requestId (.call (.timeout k job) (.refundFunds handle) (.ok ())) := serves
      rw [if_pos paid]
      exact .paid (Function.update_self _ _ _) (update_idle others) undone
  · have foreign : (JobTaskId.timeout k job).serves r = false := by simp [JobTaskId.serves, own]
    rw [pending_foreign foreign]
    cases answer with
    | error e => subst effect; exact life
    | ok =>
      subst effect
      have unpaid : refundSucceeded r (.call (.timeout k job) (.refundFunds handle) (.ok ())) = false := foreign
      simpa [unpaid, completionCommitted] using life

theorem Lifecycle.refund_recorded (life : Lifecycle (pending r g) refunds completions (store.status r))
    {answer : Except String Unit} (phase : g (.timeout k job) = .refunded)
    (effect : store.effect (.updateStatus job.requestId "Refunded") answer after)
    (known : store.status job.requestId ≠ none) (marked : job.requestId = r → answer = .ok ()) :
    Continues r g refunds completions (.timeout k job) (.updateStatus job.requestId "Refunded") answer after := by
  unfold Continues
  by_cases own : job.requestId = r
  · subst r
    have serves : (JobTaskId.timeout k job).serves job.requestId := by simp [JobTaskId.serves]
    have at_payment : pending job.requestId g (.timeout k job) = some .refunded := by
      rw [pending, if_pos serves, phase]
      rfl
    obtain ⟨rfl, rfl, others⟩ := life.at_payment at_payment
    obtain rfl := marked rfl
    subst effect
    obtain ⟨status, found⟩ := Option.ne_none_iff_exists'.mp known
    rw [pending_update, if_pos serves, store.status_setStatus, if_pos rfl, found]
    exact .refunded (update_none others)
  · have foreign : (JobTaskId.timeout k job).serves r = false := by simp [JobTaskId.serves, own]
    rw [pending_foreign foreign]
    cases answer with
    | error e => subst effect; exact life
    | ok =>
      subst effect
      rw [store.status_setStatus, if_neg (Ne.symm own)]
      exact life

end Calls

theorem Lifecycle.call {r : RequestId} {g : JobTaskId → JobPhase} {p : JobPool} {after : JobStore}
    {id : JobTaskId} {op : JobCall} {answer : JobAnswer op} {refunds completions : Nat}
    (life : Lifecycle (pending r g) refunds completions (p.shared.status r))
    (obey : Pool.Obey JobTaskId.typestate JobTaskId.Ends g p) (recorded : Recorded g p.shared)
    (allowed : id.Allowed (g id) op) (effect : p.shared.effect op answer after)
    (orderly : id.Orderly r p op answer) : Continues r g refunds completions id op answer after := by
  have idle {other : JobTaskId} (quiet : other.pastCheck r (p.tasks other) = false) :
      pending r g other = none := not_pending (obey other) quiet
  generalize phase : g id = at_phase at allowed
  cases allowed with
  | @insert k row fresh =>
    unfold Continues
    rw [pending_foreign rfl]
    cases answer with
    | error e => subst effect; exact life
    | ok =>
      subst effect
      rcases p.shared.status_insert row r with same | ⟨absent, new⟩
      · rw [same]
        exact life
      · refine life.restatus absent ?_
        rw [new, fresh]
        rfl
  | schedule =>
    unfold Continues
    rw [pending_foreign rfl]
    cases answer <;> subst effect <;> exact life
  | complete => exact life.committed effect fun own => ⟨(orderly own).1, fun other => idle ((orderly own).2 other)⟩
  | query =>
    unfold Continues
    rw [pending_foreign rfl]
    cases answer with
    | error e => subst effect; exact life
    | ok row => obtain ⟨_, rfl⟩ := effect; exact life
  | now =>
    unfold Continues
    rw [pending_update_same fun _ => by rw [phase]; rfl]
    subst effect
    exact life
  | check => exact life.passed_check phase effect fun own undone other apart => idle (orderly own undone other apart)
  | refund => exact life.refund_called phase effect
  | @record k job => exact life.refund_recorded phase effect (recorded.running k job (by rw [phase]; nofun)) orderly

theorem Recorded.spawn {g : JobTaskId → JobPhase} {store : JobStore} {id : JobTaskId} {task : JobTask Unit}
    (recorded : Recorded g store) (known : JobTaskId.Spawns escrowFromStr store id task) :
    Recorded (Function.update g id .before) store := by
  refine ⟨recorded.scheduled, fun other requestId at_insert => ?_, fun k job active => ?_⟩
  · by_cases own : other = id
    · subst other
      rw [Function.update_self] at at_insert
      cases at_insert
    · rw [Function.update_of_ne own] at at_insert
      exact recorded.inserted other requestId at_insert
  · by_cases own : JobTaskId.timeout k job = id
    · subst id
      cases known with
      | timeout _ scheduled => exact recorded.scheduled job _ scheduled
    · rw [Function.update_of_ne own] at active
      exact recorded.running k job active

theorem JobTaskId.Ends.idle {id : JobTaskId} {phase : JobPhase} (ended : id.Ends phase) :
    phase.underway = none := by
  cases id with
  | timeout k job => rcases ended with rfl | rfl <;> rfl
  | _ => rw [ended]; rfl

theorem lifecycle_of_run {trace : List (JobPool × JobLabel)} {p : JobPool}
    (run : JobRuns escrowFromStr trace p) (orderly : ∀ taken ∈ trace, Orderly r taken) :
    ∃ g, Pool.Obey JobTaskId.typestate JobTaskId.Ends g p ∧ Recorded g p.shared ∧
      Lifecycle (pending r g) (refunds r trace) (completions r trace) (p.shared.status r) := by
  refine run.history (I := fun trace p => ∃ g, Pool.Obey JobTaskId.typestate JobTaskId.Ends g p ∧
    Recorded g p.shared ∧ Lifecycle (pending r g) (refunds r trace) (completions r trace) (p.shared.status r))
    ⟨fun _ => .ended, ?_, ⟨nofun, nofun, fun _ _ active => absurd rfl active⟩, .unsettled ?_ rfl⟩ ?_
  · intro id
    cases id with
    | timeout k job => exact .inr rfl
    | _ => rfl
  · intro id
    unfold pending
    split <;> rfl
  · intro before m label n _ shape step given
    obtain ⟨g, obey, recorded, life⟩ := given
    rw [refunds_snoc, completions_snoc]
    rcases obey.step step spawns_obeys with
      ⟨id, task, rfl, ended, known, same, obeys⟩ | ⟨id, op, answer, rfl, allowed, effect, obeys⟩
    · refine ⟨_, obeys, ?_, ?_⟩
      · rw [same]
        exact recorded.spawn known
      · have idle : JobPhase.before.underway = (g id).underway := ended.idle.symm
        rw [same, pending_update_same fun _ => idle]
        exact life
    · exact ⟨_, obeys, recorded.call allowed effect,
        life.call obey recorded allowed effect (orderly _ (Run.last_mem shape))⟩

/-- What the documented transitions promise for one request. -/
structure RefundedOnce (escrowFromStr : String → Option EscrowHandle) (r : RequestId)
    (trace : List (JobPool × JobLabel)) : Prop where
  once : refunds r trace ≤ 1
  before_completion : ∀ before taken after, trace = before ++ taken :: after → refundCalled r taken.2 = true →
    completions r before = 0
  uncrossed : ∀ m label n, (m, label) ∈ trace → JobStep escrowFromStr m label n →
    ¬ (m.shared.status r = some "Completed" ∧ n.shared.status r = some "Refunded") ∧
      ¬ (m.shared.status r = some "Refunded" ∧ n.shared.status r = some "Completed")

theorem refundCalled_checked {g : JobTaskId → JobPhase} {m n : JobPool} {label : JobLabel}
    (obey : Pool.Obey JobTaskId.typestate JobTaskId.Ends g m) (step : JobStep escrowFromStr m label n)
    (called : refundCalled r label = true) : ∃ id, pending r g id = some .checked := by
  rcases obey.step step spawns_obeys with ⟨_, _, rfl, _⟩ | ⟨id, op, answer, rfl, allowed, _⟩
  · cases called
  · change id.Allowed (g id) op at allowed
    generalize phase : g id = at_phase at allowed
    cases allowed with
    | @refund k job handle =>
      have serves : (JobTaskId.timeout k job).serves r = true := called
      refine ⟨.timeout k job, ?_⟩
      rw [pending, if_pos serves, phase]
      rfl
    | _ => cases called

/-- In every run of orderly steps a job is refunded at most once and never also completed. -/
theorem orderly_jobs_refunded_once {trace : List (JobPool × JobLabel)} {p : JobPool}
    (run : JobRuns escrowFromStr trace p) (orderly : ∀ taken ∈ trace, Orderly r taken) :
    RefundedOnce escrowFromStr r trace := by
  refine ⟨?_, fun before taken after shape called => ?_, fun m label n member step => ?_⟩
  · obtain ⟨g, _, _, life⟩ := lifecycle_of_run run orderly
    exact life.refunds_le
  · obtain ⟨first, n, step, _⟩ := run.split shape
    have earlier : ∀ taken ∈ before, Orderly r taken := fun step member =>
      orderly step (by rw [shape]; exact List.mem_append_left _ member)
    obtain ⟨g, obey, _, life⟩ := lifecycle_of_run first earlier
    obtain ⟨id, checked⟩ := refundCalled_checked obey step called
    exact (life.at_check checked).2.1
  · obtain ⟨before, after, shape⟩ := List.append_of_mem member
    have earlier : ∀ taken ∈ before, Orderly r taken := fun step member =>
      orderly step (by rw [shape]; exact List.mem_append_left _ member)
    have later : ∀ taken ∈ before ++ [(m, label)], Orderly r taken := by
      intro step member
      rcases List.mem_append.mp member with member | last
      · exact earlier step member
      · rw [List.mem_singleton.mp last]
        exact orderly _ ‹(m, label) ∈ trace›
    have first := (run.split shape).1
    obtain ⟨_, _, _, life⟩ := lifecycle_of_run first earlier
    obtain ⟨_, _, _, next⟩ := lifecycle_of_run (first.snoc step) later
    rw [refunds_snoc, completions_snoc] at next
    constructor
    · intro given
      obtain ⟨completed, refunded⟩ := given
      have some_done := life.completions_of_status completed
      rw [(next.of_completions (by omega)).2] at refunded
      exact absurd refunded (by decide)
    · intro given
      obtain ⟨refunded, completed⟩ := given
      have one := life.refunds_of_status refunded
      have none_paid := (next.of_completions (next.completions_of_status completed)).1
      omega

theorem job_answers {escrowFromStr : String → Option EscrowHandle} {tasks : JobTaskId → JobTask Unit}
    {id : JobTaskId} {store : JobStore} (op : JobCall) {next : JobAnswer op → JobTask Unit}
    (answer : JobAnswer op) (after : JobStore) (effect : store.effect op answer after) :
    JobStep escrowFromStr ⟨Function.update tasks id (.call op next), store⟩ (.call id op answer)
      ⟨Function.update tasks id (next answer), after⟩ := Pool.Step.call_at op answer after effect

def someRequest : RequestId := ⟨Vector.replicate 16 7⟩

def someJob : DispatchJob := ⟨someRequest, ⟨"12D3KooWPrimary"⟩, 0, 60000, .dispatched, "\x7b\x7d"⟩

def someRow : JobRow := ⟨someRequest, "12D3KooWPrimary", 0, 60000, "Dispatched", "\x7b\x7d"⟩

def noEscrow (_ : String) : Option EscrowHandle := none

def asleep (_ : JobTaskId) : JobTask Unit := .done ()

def watching : JobTaskId → JobTask Unit :=
  Function.update asleep (.timeout 0 someJob) ((fireRefund noEscrow someJob).bind fun _ => .done ())

def pushedJob : JobStore := ⟨[someRow], [(someJob, 60)]⟩

theorem asleep_again (id : JobTaskId) : Function.update asleep id (.done ()) = asleep :=
  Function.update_eq_self _ _

theorem push_runs : ∃ trace, JobRuns noEscrow trace ⟨asleep, pushedJob⟩ ∧
    (∀ taken ∈ trace, Orderly someRequest taken) ∧ refunds someRequest trace = 0 := by
  have pushes : JobStep noEscrow ⟨asleep, ⟨[], []⟩⟩ _ _ := .spawn rfl (.push 0 someJob)
  have schedules : JobStep noEscrow
      ⟨Function.update asleep (.push 0) (.call (.scheduleRequest someJob 60) fun _ => .done ()), ⟨[someRow], []⟩⟩
      _ _ := job_answers (.scheduleRequest someJob 60) (.ok ()) pushedJob rfl
  rw [asleep_again] at schedules
  refine ⟨_, .cons pushes <| .cons (job_answers (.insertJob someRow) (.ok ()) ⟨[someRow], []⟩ rfl) <|
    .one schedules, ?_, rfl⟩
  simp [Orderly, JobTaskId.Orderly]

theorem check_runs : ∃ trace, Async.Run (JobStep noEscrow) ⟨asleep, pushedJob⟩ trace ⟨watching, pushedJob⟩ ∧
    (∀ taken ∈ trace, Orderly someRequest taken) ∧ refunds someRequest trace = 0 := by
  have executes : JobStep noEscrow ⟨asleep, pushedJob⟩ _ _ := .spawn rfl (.timeout 0 (List.mem_singleton.mpr rfl))
  have due : ¬ (60000 : UInt64) < someJob.deadlineMs := by decide
  have asks : JobStep noEscrow ⟨Function.update asleep (.timeout 0 someJob) (.call .now fun nowMs =>
      (if nowMs < someJob.deadlineMs then .done (.ok ()) else refundUnlessDone noEscrow someJob).bind
        fun _ => .done ()), pushedJob⟩ _ _ := job_answers .now 60000 pushedJob rfl
  rw [if_neg due] at asks
  have unsettled : some "Dispatched" = pushedJob.status someRequest := by decide
  refine ⟨_, .cons executes <| .cons asks <|
    .one (job_answers (.selectStatus someRequest) (.ok (some "Dispatched")) pushedJob ⟨unsettled, rfl⟩), ?_, rfl⟩
  simp only [List.mem_cons, List.not_mem_nil, or_false, forall_eq_or_imp, forall_eq]
  refine ⟨trivial, trivial, fun _ _ other apart => ?_⟩
  have done : Function.update asleep (.timeout 0 someJob) ((refundUnlessDone noEscrow someJob).bind
      fun _ => .done ()) other = .done () := Function.update_of_ne apart _ _
  simp only [done]
  rfl

theorem complete_runs (tasks : JobTaskId → JobTask Unit) (free : tasks (.complete 0) = .done ())
    (store : JobStore) : ∃ trace,
      Async.Run (JobStep noEscrow) ⟨tasks, store⟩ trace ⟨tasks, store.setStatus someRequest "Completed"⟩ ∧
        completions someRequest trace = 1 := by
  have back : Function.update tasks (.complete 0) (.done ()) = tasks := by rw [← free, Function.update_eq_self]
  have begins : JobStep noEscrow ⟨tasks, store⟩ _ _ := .spawn free (.complete 0 someRequest)
  have commits : JobStep noEscrow ⟨Function.update tasks (.complete 0)
      (.call (.updateStatus someRequest "Completed") fun _ => .done ()), store⟩ _ _ :=
    job_answers (.updateStatus someRequest "Completed") (.ok ()) (store.setStatus someRequest "Completed") rfl
  rw [back] at commits
  exact ⟨_, .cons begins <| .one commits, rfl⟩

theorem refund_runs (store : JobStore) : ∃ trace,
    Async.Run (JobStep noEscrow) ⟨watching, store⟩ trace ⟨asleep, store.setStatus someRequest "Refunded"⟩ ∧
      (∀ taken ∈ trace, Orderly someRequest taken) ∧ refunds someRequest trace = 1 ∧
      ∃ taken after, trace = taken :: after ∧ refundCalled someRequest taken.2 = true := by
  have records : JobStep noEscrow ⟨Function.update asleep (.timeout 0 someJob)
      (.call (.updateStatus someRequest "Refunded") fun _ => .done ()), store⟩ _ _ :=
    job_answers (.updateStatus someRequest "Refunded") (.ok ()) (store.setStatus someRequest "Refunded") rfl
  rw [asleep_again] at records
  refine ⟨_, .cons (job_answers (.refundFunds (escrowHandle noEscrow someJob)) (.ok ()) store rfl) <|
    .one records, ?_, rfl, _, _, rfl, rfl⟩
  simp only [List.mem_cons, List.not_mem_nil, or_false, forall_eq_or_imp, forall_eq]
  exact ⟨trivial, fun _ => rfl⟩

/-- The completion is committed between the watcher's check and its refund. -/
theorem completed_then_refunded : ∃ trace p, JobRuns noEscrow trace p ∧
    p.shared.status someRequest = some "Refunded" ∧ ¬ RefundedOnce noEscrow someRequest trace := by
  obtain ⟨first, pushed, _⟩ := push_runs
  obtain ⟨second, checked, _⟩ := check_runs
  obtain ⟨third, completed, committed⟩ := complete_runs watching rfl pushedJob
  obtain ⟨fourth, refunded, _, _, taken, after, rfl, called⟩ := refund_runs (pushedJob.setStatus someRequest "Completed")
  refine ⟨_, _, ((pushed.append checked).append completed).append refunded, by decide, fun once => ?_⟩
  have uncommitted := once.before_completion _ taken after rfl called
  have some_done : completions someRequest (first ++ second ++ third) =
      completions someRequest (first ++ second) + completions someRequest third := List.countP_append
  omega

theorem late_job_refunded_once : ∃ trace p, JobRuns noEscrow trace p ∧
    refunds someRequest trace = 1 ∧ RefundedOnce noEscrow someRequest trace := by
  obtain ⟨first, pushed, push_orderly, unpaid⟩ := push_runs
  obtain ⟨second, checked, check_orderly, still⟩ := check_runs
  obtain ⟨third, refunded, refund_orderly, paid, _⟩ := refund_runs pushedJob
  have run := (pushed.append checked).append refunded
  refine ⟨_, _, run, ?_, orderly_jobs_refunded_once run fun taken member => ?_⟩
  · simp only [refunds, List.countP_append] at unpaid still paid ⊢
    omega
  · rcases List.mem_append.mp member with earlier | member
    · rcases List.mem_append.mp earlier with member | member
      · exact push_orderly taken member
      · exact check_orderly taken member
    · exact refund_orderly taken member

end Coordinator
