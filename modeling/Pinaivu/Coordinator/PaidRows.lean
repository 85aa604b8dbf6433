import Pinaivu.Coordinator.Coverage
import Pinaivu.Coordinator.Executions
import Pinaivu.Onchain.Vault

namespace Coordinator

open Protocol Crypto Async Onchain

variable {C : Primitives} {X : Externals}

def Label.paysOut : Label → Bool
  | .call _ (.settle _ _ _) _ => true
  | _ => false

/-- What comes of a settle call: whether its transaction succeeds, and what the worker hears. The
    sidecar answers an abort with an error, and its answer may be lost. -/
inductive Outcome (C : Primitives) (config : Sidecar.Config) (enclave : PublicKey) (v : Vault)
    (receipt : RoutingReceipt) (payee : String) (amount : UInt64) : Except String String → Bool → Vault → Prop where
  | paid {call : Sidecar.SettleCall} {v' : Vault} {digest : String}
      (built : Sidecar.postSettle config (Sidecar.settleReq receipt payee amount).receive = some call)
      (settled : v.settle C enclave call = some v') : Outcome C config enclave v receipt payee amount (.ok digest) true v'
  | replyLost {call : Sidecar.SettleCall} {v' : Vault} {e : String}
      (built : Sidecar.postSettle config (Sidecar.settleReq receipt payee amount).receive = some call)
      (settled : v.settle C enclave call = some v') : Outcome C config enclave v receipt payee amount (.error e) true v'
  | refused (e : String) : Outcome C config enclave v receipt payee amount (.error e) false v

/-- The coordinator together with the vault; a label also tells whether a transaction succeeded. -/
inductive ChainStep (X : Externals) (config : Sidecar.Config) (enclave : PublicKey) :
    World C × Vault → Label × Bool → World C × Vault → Prop where
  | other {w w' : World C} {v : Vault} {label : Label} (step : Step X w label w') (off : label.paysOut = false) :
      ChainStep X config enclave (w, v) (label, false) (w', v)
  | settle {w w' : World C} {v v' : Vault} {id : TaskId} {receipt : RoutingReceipt} {payee : String}
      {amount : UInt64} {answer : Except String String} {landed : Bool}
      (step : Step X w (.call id (.settle receipt payee amount) answer) w')
      (outcome : Outcome C config enclave v receipt payee amount answer landed v') :
      ChainStep X config enclave (w, v) (.call id (.settle receipt payee amount) answer, landed) (w', v')

abbrev ChainTrace (C : Primitives) := List ((World C × Vault) × (Label × Bool))

abbrev ChainRuns (X : Externals) (config : Sidecar.Config) (enclave : PublicKey) (start : World C × Vault)
    (trace : ChainTrace C) (s : World C × Vault) : Prop := Async.Run (ChainStep X config enclave) start trace s

variable {config : Sidecar.Config} {enclave : PublicKey} {start s t : World C × Vault} {trace : ChainTrace C}
  {loop : EventLoop C} {archive : ReceiptArchive} {ttl : UInt64} {vault : Vault}

def offChain (trace : ChainTrace C) : List (World C × Label) := trace.map fun step => (step.1.1, step.2.1)

theorem ChainStep.world {label : Label × Bool} (step : ChainStep X config enclave s label t) :
    Step X s.1 label.1 t.1 := by
  cases step with
  | other step off => exact step
  | settle step outcome => exact step

theorem offChain_run (run : ChainRuns X config enclave start trace s) : Runs X start.1 (offChain trace) s.1 :=
  run.map fun _ _ _ step => step.world

theorem offChain_snoc (step : (World C × Vault) × (Label × Bool)) :
    offChain (trace ++ [step]) = offChain trace ++ [(step.1.1, step.2.1)] := List.map_append

def SettlementPhase.current : SettlementPhase → Option Uuid
  | .working _ row _ => some row.id
  | _ => none

def SettledAs (X : Externals) (trace : ChainTrace C) (id : Uuid) (answer : Except String String)
    (landed : Bool) : Prop :=
  ∃ before s k job receipt payee amount after,
    trace = before ++ (s, (Label.call (.settlement k job) (.settle receipt payee amount) answer, landed)) :: after ∧
    (executionPhase X k job (offChain before)).current = some id

/-- The row's transaction has succeeded on chain. -/
def Landed (X : Externals) (trace : ChainTrace C) (id : Uuid) : Prop := ∃ answer, SettledAs X trace id answer true

/-- The worker has been told that a settle call for the row failed. -/
def Errored (X : Externals) (trace : ChainTrace C) (id : Uuid) : Prop :=
  ∃ e landed, SettledAs X trace id (.error e) landed

theorem SettledAs.mono {before : ChainTrace C} {id : Uuid} {answer : Except String String} {landed : Bool}
    (settled : SettledAs X before id answer landed) (shape : before <+: trace) :
    SettledAs X trace id answer landed := by
  obtain ⟨early, s, k, job, receipt, payee, amount, after, rfl, current⟩ := settled
  obtain ⟨rest, rfl⟩ := shape
  exact ⟨early, s, k, job, receipt, payee, amount, after ++ rest, by simp, current⟩

theorem Landed.mono {before : ChainTrace C} {id : Uuid} (landed : Landed X before id) (shape : before <+: trace) :
    Landed X trace id := landed.imp fun _ settled => settled.mono shape

theorem Errored.mono {before : ChainTrace C} {id : Uuid} (errored : Errored X before id)
    (shape : before <+: trace) : Errored X trace id :=
  errored.imp fun _ told => told.imp fun _ settled => settled.mono shape

theorem step_payment {m n : World C} {label : Label} (step : Step X m label n) {p : Payment}
    (member : p ∈ n.payments) :
    p ∈ m.payments ∨ (p.status = .pending ∧ ∃ id, label = .call id (.insertPayment p.row) (.ok ())) ∨
      (p.status = .submitted ∧ ∃ id digest, label = .call id (.markSubmitted p.row.id digest) (.ok ())) ∨
      (p.status = .failed ∧ ∃ id, label = .call id (.markFailed p.row.id) (.ok ())) := by
  cases step with
  | cancel k =>
    rw [(dropChat_keeps m k).2.2.2.1] at member
    exact .inl member
  | @call w'' id op next answer waiting answered =>
    change p ∈ w''.payments at member
    cases performed answered with
    | insert row =>
      rcases Payments.eq_of_mem_insert member with old | rfl
      · exact .inl old
      · exact .inr (.inl ⟨rfl, id, rfl⟩)
    | submitted x digest =>
      rcases Payments.mem_update member with ⟨old, _⟩ | ⟨q, _, rfl, rfl⟩
      · exact .inl old
      · exact .inr (.inr (.inl ⟨rfl, id, digest, rfl⟩))
    | failed x =>
      rcases Payments.mem_update member with ⟨old, _⟩ | ⟨q, _, rfl, rfl⟩
      · exact .inl old
      · exact .inr (.inr (.inr ⟨rfl, id, rfl⟩))
    | _ => exact .inl member
  | _ => exact .inl member

/-- Recorded results are those of settle calls, and so are the ones still to be recorded. -/
structure RowsTold (X : Externals) (trace : ChainTrace C) (w : World C) : Prop where
  failed : ∀ p ∈ w.payments, p.status = .failed → Errored X trace p.row.id
  submitted : ∀ p ∈ w.payments, p.status = .submitted → Landed X trace p.row.id
  failing : ∀ k job receipt row rows,
    executionPhase X k job (offChain trace) = .failing receipt row rows → Errored X trace row.id
  recording : ∀ k job receipt row digest rows,
    executionPhase X k job (offChain trace) = .recording receipt row digest rows → Landed X trace row.id

theorem resume_ne_failing {receipt other : RoutingReceipt} {row : PendingPayment} (rows rest : List PendingPayment) :
    SettlementPhase.resume other rest ≠ .failing receipt row rows := by
  cases rest <;> exact nofun

theorem resume_ne_recording {receipt other : RoutingReceipt} {row : PendingPayment} {digest : String}
    (rows rest : List PendingPayment) : SettlementPhase.resume other rest ≠ .recording receipt row digest rows := by
  cases rest <;> exact nofun

theorem selected_shape (job : SettlementJob) (rows : List PendingPayment) :
    (∃ result, SettlementPhase.selected X job rows = .closing result) ∨
      ∃ receipt, SettlementPhase.selected X job rows = .resume receipt rows := by
  unfold SettlementPhase.selected
  split
  · exact .inl ⟨_, rfl⟩
  · split
    · exact .inl ⟨_, rfl⟩
    · exact .inr ⟨_, rfl⟩

theorem recording_step {k : Nat} {job : SettlementJob} {phase : SettlementPhase} {op : Call} {answer : Answer op}
    (allowed : phase.Allowed job op) :
    (∀ receipt row digest rows, phase.advance X job op answer = .recording receipt row digest rows →
      ∃ payee amount, phase.current = some row.id ∧
        Label.call (.settlement k job) op answer = .call (.settlement k job) (.settle receipt payee amount) (.ok digest)) ∧
    ∀ receipt row rows, phase.advance X job op answer = .failing receipt row rows →
      ∃ payee amount e, phase.current = some row.id ∧
        Label.call (.settlement k job) op answer = .call (.settlement k job) (.settle receipt payee amount) (.error e) := by
  cases allowed with
  | select =>
    cases answer with
    | error e => exact ⟨fun _ _ _ _ => nofun, fun _ _ _ => nofun⟩
    | ok rows =>
      rcases selected_shape (X := X) job rows with ⟨result, closing⟩ | ⟨receipt, resumed⟩
      · simp only [SettlementPhase.advance, closing]
        exact ⟨fun _ _ _ _ => nofun, fun _ _ _ => nofun⟩
      · simp only [SettlementPhase.advance, resumed]
        exact ⟨fun _ _ _ _ same => absurd same (resume_ne_recording _ _),
          fun _ _ _ same => absurd same (resume_ne_failing _ _)⟩
  | settle =>
    cases answer with
    | error e =>
      refine ⟨fun _ _ _ _ => nofun, fun _ _ _ same => ?_⟩
      cases same
      exact ⟨_, _, e, rfl, rfl⟩
    | ok digest =>
      refine ⟨fun _ _ _ _ same => ?_, fun _ _ _ => nofun⟩
      cases same
      exact ⟨_, _, rfl, rfl⟩
  | submit =>
    cases answer with
    | error e => exact ⟨fun _ _ _ _ => nofun, fun _ _ _ => nofun⟩
    | ok =>
      exact ⟨fun _ _ _ _ same => absurd same (resume_ne_recording _ _),
        fun _ _ _ same => absurd same (resume_ne_failing _ _)⟩
  | fail =>
    cases answer with
    | error e => exact ⟨fun _ _ _ _ => nofun, fun _ _ _ => nofun⟩
    | ok =>
      exact ⟨fun _ _ _ _ same => absurd same (resume_ne_recording _ _),
        fun _ _ _ same => absurd same (resume_ne_failing _ _)⟩
  | close => exact ⟨fun _ _ _ _ => nofun, fun _ _ _ => nofun⟩

theorem failing_of_marked {trace : List (World C × Label)} {m n : World C}
    (run : Runs X (World.start loop archive ttl) trace m) {id : TaskId} {x : Uuid} {answer : Except String Unit}
    (step : Step X m (.call id (.markFailed x) answer) n) :
    ∃ k job receipt row rows, executionPhase X k job trace = .failing receipt row rows ∧ row.id = x := by
  have performs := call_performs run step
  cases id with
  | settlement k job =>
    have allowed := (executionTracking C X job).allowed (execution_obeyed run k job) step
    change (executionPhase X k job trace).Allowed job _ at allowed
    refine ⟨k, job, ?_⟩
    generalize executionPhase X k job trace = phase at allowed
    cases allowed with
    | @fail receipt row rows => exact ⟨receipt, row, rows, rfl, rfl⟩
  | _ => cases performs

theorem recording_of_marked {trace : List (World C × Label)} {m n : World C}
    (run : Runs X (World.start loop archive ttl) trace m) {id : TaskId} {x : Uuid} {digest : String}
    {answer : Except String Unit} (step : Step X m (.call id (.markSubmitted x digest) answer) n) :
    ∃ k job receipt row rows, executionPhase X k job trace = .recording receipt row digest rows ∧ row.id = x := by
  have performs := call_performs run step
  cases id with
  | settlement k job =>
    have allowed := (executionTracking C X job).allowed (execution_obeyed run k job) step
    change (executionPhase X k job trace).Allowed job _ at allowed
    refine ⟨k, job, ?_⟩
    generalize executionPhase X k job trace = phase at allowed
    cases allowed with
    | @submit receipt row _ rows => exact ⟨receipt, row, rows, rfl, rfl⟩
  | _ => cases performs

theorem landed_of_ok {id : TaskId} {receipt : RoutingReceipt} {payee : String} {amount : UInt64} {digest : String}
    {landed : Bool} (step : ChainStep X config enclave s (.call id (.settle receipt payee amount) (.ok digest), landed) t) :
    landed = true := by
  cases step with
  | other step off => cases off
  | settle step outcome =>
    cases outcome with
    | paid built settled => rfl

theorem rowsTold (run : ChainRuns X config enclave (World.start loop archive ttl, vault) trace s) :
    RowsTold X trace s.1 := by
  refine run.history (I := fun trace s => RowsTold X trace s.1) ⟨nofun, nofun, fun _ _ _ _ _ => nofun,
    fun _ _ _ _ _ _ => nofun⟩ ?_
  intro before m given n run _ step kept
  obtain ⟨label, landed⟩ := given
  have world := offChain_run run
  have grow : before <+: before ++ [(m, label, landed)] := List.prefix_append _ _
  refine ⟨?_, ?_, ?_, ?_⟩
  · intro p member failed
    rcases step_payment step.world member with old | ⟨pending, _⟩ | ⟨submitted, _⟩ | ⟨_, id, shape⟩
    · exact (kept.failed p old failed).mono grow
    · rw [failed] at pending
      cases pending
    · rw [failed] at submitted
      cases submitted
    · have taken := step.world
      rw [shape] at taken
      obtain ⟨k, job, receipt, row, rows, failing, same⟩ := failing_of_marked world taken
      rw [← same]
      exact (kept.failing k job receipt row rows failing).mono grow
  · intro p member submitted
    rcases step_payment step.world member with old | ⟨pending, _⟩ | ⟨_, id, digest, shape⟩ | ⟨failed, _⟩
    · exact (kept.submitted p old submitted).mono grow
    · rw [submitted] at pending
      cases pending
    · have taken := step.world
      rw [shape] at taken
      obtain ⟨k, job, receipt, row, rows, recording, same⟩ := recording_of_marked world taken
      rw [← same]
      exact (kept.recording k job receipt row digest rows recording).mono grow
    · rw [submitted] at failed
      cases failed
  · intro k job receipt row rows failing
    rw [offChain_snoc] at failing
    rcases executionPhase_step world step.world k job with same | ⟨op, answer, shape, allowed, moved⟩ | ⟨_, started⟩
    · rw [same] at failing
      exact (kept.failing k job receipt row rows failing).mono grow
    · rw [moved] at failing
      obtain ⟨payee, amount, e, current, settle⟩ := (recording_step (k := k) allowed).2 receipt row rows failing
      change label = _ at shape
      rw [settle] at shape
      subst shape
      exact ⟨e, landed, before, m, k, job, receipt, payee, amount, [], rfl, current⟩
    · rw [started] at failing
      cases failing
  · intro k job receipt row digest rows recording
    rw [offChain_snoc] at recording
    rcases executionPhase_step world step.world k job with same | ⟨op, answer, shape, allowed, moved⟩ | ⟨_, started⟩
    · rw [same] at recording
      exact (kept.recording k job receipt row digest rows recording).mono grow
    · rw [moved] at recording
      obtain ⟨payee, amount, current, settle⟩ := (recording_step (k := k) allowed).1 receipt row digest rows recording
      change label = _ at shape
      rw [settle] at shape
      subst shape
      obtain rfl := landed_of_ok step
      exact ⟨.ok digest, before, m, k, job, receipt, payee, amount, [], rfl, current⟩
    · rw [started] at recording
      cases recording

/-- In every run in which no row has both a transaction that succeeded and a settle call answered with an
    error, no paid row is recorded as failed, and no row goes from submitted to failed. -/
theorem paid_rows_not_failed (X : Externals) (config : Sidecar.Config) (enclave : PublicKey) (loop : EventLoop C)
    (archive : ReceiptArchive) (ttl : UInt64) (vault : Vault) (trace : ChainTrace C) (s : World C × Vault)
    (run : ChainRuns X config enclave (World.start loop archive ttl, vault) trace s)
    (told : ∀ id, Landed X trace id → ¬ Errored X trace id) :
    (∀ p ∈ s.1.payments, Landed X trace p.row.id → p.status ≠ .failed) ∧
      ∀ m label, (m, label) ∈ trace → ∀ p ∈ m.1.payments, p.status = .submitted →
        ∀ q ∈ s.1.payments, q.row.id = p.row.id → q.status ≠ .failed := by
  have rows := rowsTold run
  have paid : ∀ p ∈ s.1.payments, Landed X trace p.row.id → p.status ≠ .failed :=
    fun p member landed failed => told p.row.id landed (rows.failed p member failed)
  refine ⟨paid, ?_⟩
  intro m label taken p member submitted q inside same
  obtain ⟨before, after, rfl⟩ := List.append_of_mem taken
  have landed := (rowsTold (run.split rfl).1).submitted p member submitted
  rw [← same] at landed
  exact paid q inside (landed.mono (List.prefix_append _ _))

theorem storage_nil {m n : World C} {label : Label} (step : Step X m label n) (empty : n.storage = []) :
    m.storage = [] := by
  rcases step_stores step with ⟨_, _, _, same⟩ | ⟨id, op, answer, next, m', rfl, _, answered, rfl⟩
  · rwa [same] at empty
  · change m'.storage = [] at empty
    cases performed answered with
    | pushed job => simp at empty
    | finished job => simpa using empty
    | _ => exact empty

theorem unsettled {trace : List (World C × Label)} {w : World C}
    (run : Runs X (World.start loop archive ttl) trace w) (empty : w.storage = []) :
    (∀ k job, w.tasks (.settlement k job) = .done ()) ∧ ∀ step ∈ trace, step.2.paysOut = false := by
  revert empty
  refine run.history (I := fun trace w => w.storage = [] → (∀ k job, w.tasks (.settlement k job) = .done ()) ∧
    ∀ step ∈ trace, step.2.paysOut = false) 
    (fun _ => ⟨fun _ _ => rfl, fun _ member => absurd member List.not_mem_nil⟩) ?_
  intro before m label n run _ step kept empty
  have empty := storage_nil step empty
  obtain ⟨idle, off⟩ := kept empty
  constructor
  · intro k job
    rcases step_task step (.settlement k job) with same | ⟨op, next, answer, _, _, waiting, _⟩ | begun
    · rw [same]
      exact idle k job
    · rw [idle k job] at waiting
      cases waiting
    · generalize n.tasks (.settlement k job) = task at begun
      cases begun with
      | execute k stored known =>
        rw [empty] at known
        exact absurd known List.not_mem_nil
  · intro taken member
    rcases List.mem_append.mp member with old | last
    · exact off taken old
    rw [List.mem_singleton.mp last]
    cases label with
    | call id op answer =>
      cases op with
      | settle receipt payee amount =>
        have performs := call_performs run step
        cases id with
        | settlement k job =>
          cases step with
          | call waiting answered =>
            rw [idle k job] at waiting
            cases waiting
        | _ => cases performs
      | _ => rfl
    | _ => rfl

theorem chainRuns_of_off (config : Sidecar.Config) (enclave : PublicKey) {trace : List (World C × Label)}
    {w w' : World C} (run : Runs X w trace w')
    (off : ∀ step ∈ trace, step.2.paysOut = false) (v : Vault) :
    ∃ chain, ChainRuns X config enclave (w, v) chain (w', v) ∧ offChain chain = trace := by
  induction run with
  | nil => exact ⟨[], .nil, rfl⟩
  | @snoc m t trace label run last ih =>
    obtain ⟨chain, earlier, same⟩ := ih fun step member => off step (List.mem_append_left _ member)
    have quiet := off (m, label) (List.mem_append_right _ (List.mem_singleton_self _))
    refine ⟨chain ++ [((m, v), (label, false))], .snoc earlier (.other last quiet), ?_⟩
    rw [offChain_snoc, same]

theorem not_errored {id : Uuid} (succeeds : ∀ step ∈ offChain trace, ∀ task receipt payee amount e,
    step.2 ≠ .call task (.settle receipt payee amount) (.error e)) : ¬ Errored X trace id := by
  intro given
  obtain ⟨e, landed, before, s, k, job, receipt, payee, amount, after, rfl, _⟩ := given
  refine succeeds (s.1, .call (.settlement k job) (.settle receipt payee amount) (.error e)) ?_ _ _ _ _ _ rfl
  exact List.mem_map.mpr ⟨_, List.mem_append_right _ List.mem_cons_self, rfl⟩

theorem executionPhase_selected (faithful : X.RoundTrip) (receipt : RoutingReceipt) (k : Nat)
    (before : List (World C × Label)) (m n : World C) (row : PendingPayment) (rows : List PendingPayment) :
    let job : SettlementJob := ⟨receipt.requestId, X.receiptToString receipt⟩
    executionPhase X k job (before ++ [(m, .execute k job),
      (n, .call (.settlement k job) (.selectPending receipt.requestId) (.ok (row :: rows)))]) =
      .working receipt row rows := by
  intro job
  unfold executionPhase
  rw [List.append_cons, Tracking.state_snoc, Tracking.state_snoc, Tracking.next_call,
    Tracking.next_starts _ _ _ rfl]
  change SettlementPhase.selected X job (row :: rows) = _
  simp only [SettlementPhase.selected, job, faithful.text]
  rfl

theorem sample_settles {C : Primitives} (correct : C.Correct) {key : C.SigningKey} {r receipt : RoutingReceipt}
    (signed : r.sign C key = some receipt) (timestamp : receipt.timestampMs = 1700000010000)
    (payouts : receipt.payouts = [⟨"0x0abc", 1000⟩]) :
    ∃ call v', Sidecar.postSettle Sidecar.sampleConfig (Sidecar.settleReq receipt "0x0abc" 1000).receive = some call ∧
      (⟨1000000, []⟩ : Vault).settle C (C.verifyingKey key) call = some v' := by
  have lines : ((receipt.payouts.map Sidecar.receivedPayout).mapM Sidecar.newPayout).isSome = true := by
    rw [payouts]
    decide +kernel
  obtain ⟨call, built⟩ := Sidecar.postSettle_isSome Sidecar.sampleConfig receipt "0x0abc" 1000 (by decide) (by decide)
    (by decide) (by decide) (by rw [timestamp]; decide) lines
  have passed : PassedOn receipt := by
    rw [PassedOn, timestamp, payouts]
    refine ⟨by decide, ?_⟩
    intro p member
    rw [List.mem_singleton.mp member]
    exact ⟨.inr (by decide), by decide⟩
  have amount := (Sidecar.postSettle_arguments built).2.2.1
  have value : call.amount = 1000 := by
    apply Option.some.inj
    rw [← amount]
    decide
  refine ⟨call, _, built, Vault.settle_eq _ built ?_ (verifyCompletionReceipt_signed correct signed passed built) rfl ?_⟩
  · rw [payouts]
    exact List.mem_singleton_self _
  · rw [value]
    decide

theorem reach_sample_working (config : Sidecar.Config) (enclave : PublicKey) (faithful : X.RoundTrip)
    (correct : C.Correct) (key : C.SigningKey) (v : Vault) :
    ∃ (chain : ChainTrace C) (w : World C) (r receipt : RoutingReceipt) (row : PendingPayment)
        (after : Except String String → Task Unit),
      let job : SettlementJob := ⟨receipt.requestId, X.receiptToString receipt⟩
      ChainRuns X config enclave (World.start (EventLoop.new key true true) (.postgres fun _ => none) 60000, v) chain
        (w.setTask (.settlement 0 job)
          (.call (.settle receipt row.payeeSuiAddress row.amountNanox.toUInt64) after), v) ∧
      (∀ step ∈ offChain chain, step.2.paysOut = false) ∧
      (executionPhase X 0 job (offChain chain)).current = some row.id ∧
      r.sign C key = some receipt ∧ receipt.timestampMs = 1700000010000 ∧ receipt.payouts = [⟨"0x0abc", 1000⟩] ∧
      row.requestId = receipt.requestId ∧ row.payeeSuiAddress = "0x0abc" ∧ row.amountNanox.toUInt64 = 1000 ∧
      w.payments = [⟨row, .pending, none⟩] ∧ ⟨job, false⟩ ∈ w.storage ∧ (∀ id, w.tasks id = .done ()) ∧
      ∀ digest, ∃ last, after (.ok digest) = .call (.markSubmitted row.id digest) last := by
  obtain ⟨before, queued, r, receipt, left, _, _, _, signed, _, timestamp, payouts, pending, jobs, empty, free⟩ :=
    reach_sample_queued X correct key
  obtain ⟨taking, holding, w, right, payments, storage, tasks⟩ := reach_stored X queued (free _) jobs
  let row := PayoutLine.row ⟨Vector.replicate 16 7⟩ receipt.requestId ⟨"12D3KooWPeerNode1", "0x0abc", 1000⟩
  let job : SettlementJob := ⟨receipt.requestId, X.receiptToString receipt⟩
  have known : (⟨job, false⟩ : StoredJob) ∈ w.storage := by
    rw [storage]
    exact List.mem_append_right _ (List.mem_singleton_self _)
  have idle : ∀ id, w.tasks id = .done () := by
    rw [tasks]
    exact free
  have rows : w.payments = [⟨row, .pending, none⟩] := payments.trans pending
  obtain ⟨m, after, work, submitted, _⟩ := reach_working X faithful w 0 (idle _) known rows rfl
  let forwarded : List (World C × Label) := [(queued, .forward), (taking, .call .forwarder .recvJob job),
    (holding, .call .forwarder (.pushRequest job) (.ok ()))]
  let started : List (World C × Label) := [(w, .execute 0 job),
    (m, .call (.settlement 0 job) (.selectPending receipt.requestId) (.ok [row]))]
  have run : Runs X _ (before ++ forwarded ++ started) _ := (left.append right).append work
  have quiet : ∀ step ∈ before ++ forwarded ++ started, step.2.paysOut = false := by
    simp only [List.append_assoc, List.forall_mem_append]
    exact ⟨(unsettled left empty).2, by simp [forwarded, Label.paysOut], by simp [started, Label.paysOut]⟩
  obtain ⟨chain, chained, same⟩ := chainRuns_of_off config enclave run quiet v
  refine ⟨chain, w, r, receipt, row, after, chained, by rwa [same], ?_, signed, timestamp, payouts, rfl, rfl,
    PayoutLine.row_amount _ _ _, rows, known, idle, submitted⟩
  rw [same, executionPhase_selected faithful]
  rfl

theorem chainStep_pays {w : World C} {v v' : Vault} {id : TaskId} {receipt : RoutingReceipt} {payee digest : String}
    {amount : UInt64} {after : Except String String → Task Unit} {rest : Task Unit} {call : Sidecar.SettleCall}
    (continues : after (.ok digest) = rest)
    (built : Sidecar.postSettle config (Sidecar.settleReq receipt payee amount).receive = some call)
    (settled : v.settle C enclave call = some v') :
    ChainStep X config enclave (w.setTask id (.call (.settle receipt payee amount) after), v)
      (.call id (.settle receipt payee amount) (.ok digest), true) (w.setTask id rest, v') := by
  have step : Step X (w.setTask id (.call (.settle receipt payee amount) after))
      (.call id (.settle receipt payee amount) (.ok digest)) _ := .call (World.setTask_same _ _ _) rfl
  rw [World.setTask_setTask, continues] at step
  exact .settle step (.paid built settled)

/-- Two executions of one job read the row before either records its result: the first pays it and marks
    it submitted, the vault refuses the second, and that one marks it failed. -/
theorem paid_row_marked_failed :
    let C := Primitives.marking []
    let X := Externals.serde (fun _ => none) fun text => .ok ⟨text⟩
    ∃ (trace : ChainTrace C) (s : World C × Vault),
      ChainRuns X Sidecar.sampleConfig (Vector.replicate 32 0)
        (World.start (EventLoop.new (C := C) (Vector.replicate 32 0) true true) (.postgres fun _ => none) 60000,
          ⟨1000000, []⟩) trace s ∧
      (∃ p ∈ s.1.payments, Landed X trace p.row.id ∧ p.status = .failed) ∧
      ∃ m label, (m, label) ∈ trace ∧
        ∃ p ∈ m.1.payments, p.status = .submitted ∧ ∃ q ∈ s.1.payments, q.row.id = p.row.id ∧ q.status = .failed := by
  intro C X
  have faithful : X.RoundTrip := Externals.serde_roundTrip _ _
  have correct : C.Correct := Primitives.marking_correct _
  let v : Vault := ⟨1000000, []⟩
  obtain ⟨before, w, r, receipt, row, after, reached, _, current, signed, timestamp, payouts, request, payee,
    amount, pending, known, idle, submitted⟩ := reach_sample_working
      Sidecar.sampleConfig (Vector.replicate 32 0) faithful correct (Vector.replicate 32 0) v
  obtain ⟨call, v', built, settled⟩ := sample_settles correct signed timestamp payouts
  let job : SettlementJob := ⟨receipt.requestId, X.receiptToString receipt⟩
  let pays : Call := .settle receipt row.payeeSuiAddress row.amountNanox.toUInt64
  obtain ⟨last, recording⟩ := submitted "5xJ"
  let paid : World C := w.setTask (.settlement 0 job) (.call (.markSubmitted row.id "5xJ") last)
  have first : ChainStep X Sidecar.sampleConfig (Vector.replicate 32 0)
      (w.setTask (.settlement 0 job) (.call pays after), v)
      (.call (.settlement 0 job) pays (.ok "5xJ"), true) (paid, v') := by
    rw [← payee, ← amount] at built
    exact chainStep_pays recording built settled
  have free : paid.tasks (.settlement 1 job) = .done () := idle _
  obtain ⟨m, after', work, _, failed⟩ := reach_working X faithful paid 1 free known pending request
  obtain ⟨last', failing⟩ := failed "abort"
  obtain ⟨overlap, worked, _⟩ := chainRuns_of_off Sidecar.sampleConfig (Vector.replicate 32 0)
    work (by simp [Label.paysOut]) v'
  let selected : World C := paid.setTask (.settlement 1 job) (.call pays after')
  have holds : selected.tasks (.settlement 0 job) = .call (.markSubmitted row.id "5xJ") last :=
    (World.setTask_other (by simp) _).trans (World.setTask_same _ _ _)
  let marked : World C := { selected with payments := selected.payments.markSubmitted row.id "5xJ" }.setTask
    (.settlement 0 job) (last (.ok ()))
  have waits : marked.tasks (.settlement 1 job) = .call pays after' :=
    (World.setTask_other (by simp) _).trans (World.setTask_same _ _ _)
  let refused : World C := marked.setTask (.settlement 1 job) (.call (.markFailed row.id) last')
  let ended : World C := { refused with payments := refused.payments.markFailed row.id }.setTask
    (.settlement 1 job) (last' (.ok ()))
  have second : ChainStep X Sidecar.sampleConfig (Vector.replicate 32 0) (selected, v')
      (.call (.settlement 0 job) (.markSubmitted row.id "5xJ") (.ok ()), false) (marked, v') := .other (.call holds rfl) rfl
  have third : ChainStep X Sidecar.sampleConfig (Vector.replicate 32 0) (marked, v')
      (.call (.settlement 1 job) pays (.error "abort"), false) (refused, v') := by
    refine .settle ?_ (.refused "abort")
    have step : Step X marked (.call (.settlement 1 job) pays (.error "abort")) _ := .call waits rfl
    rw [failing] at step
    exact step
  have fourth : ChainStep X Sidecar.sampleConfig (Vector.replicate 32 0) (refused, v')
      (.call (.settlement 1 job) (.markFailed row.id) (.ok ()), false) (ended, v') :=
    .other (.call (World.setTask_same _ _ _) rfl) rfl
  have rows : marked.payments = [⟨row, .submitted, some "5xJ"⟩] := by
    change w.payments.markSubmitted row.id "5xJ" = _
    rw [pending]
    simp [Payments.markSubmitted, Payments.update]
  have lost : ended.payments = [⟨row, .failed, some "5xJ"⟩] := by
    change marked.payments.markFailed row.id = _
    rw [rows]
    simp [Payments.markFailed, Payments.update]
  refine ⟨_, (ended, v'), reached.append (.cons first (worked.append (.cons second (.cons third (.one fourth))))), ?_, ?_⟩
  · refine ⟨⟨row, .failed, some "5xJ"⟩, ?_, ⟨.ok "5xJ", before, _, 0, job, _, _, _, _, rfl, current⟩, rfl⟩
    rw [lost]
    exact List.mem_singleton_self _
  · refine ⟨(marked, v'), (.call (.settlement 1 job) pays (.error "abort"), false), by simp, ?_⟩
    refine ⟨⟨row, .submitted, some "5xJ"⟩, ?_, rfl, ⟨row, .failed, some "5xJ"⟩, ?_, rfl, rfl⟩
    · rw [rows]
      exact List.mem_singleton_self _
    · rw [lost]
      exact List.mem_singleton_self _

/-- The job is executed once more after its row has been paid and recorded: it finds nothing left to settle. -/
theorem sample_row_stays_submitted :
    let C := Primitives.marking []
    let X := Externals.serde (fun _ => none) fun text => .ok ⟨text⟩
    ∃ (trace : ChainTrace C) (s m n : World C × Vault) (job : SettlementJob) (receipt : RoutingReceipt) (payee : String)
      (amount : UInt64),
      ChainRuns X Sidecar.sampleConfig (Vector.replicate 32 0)
        (World.start (EventLoop.new (C := C) (Vector.replicate 32 0) true true) (.postgres fun _ => none) 60000,
          ⟨1000000, []⟩) trace s ∧
      (m, (Label.call (.settlement 0 job) (.settle receipt payee amount) (.ok "5xJ"), true)) ∈ trace ∧
      (n, (Label.call (.settlement 1 job) (.selectPending job.requestId) (.ok []), false)) ∈ trace ∧
      ∃ p ∈ s.1.payments, Landed X trace p.row.id ∧ p.status ≠ .failed := by
  intro C X
  have faithful : X.RoundTrip := Externals.serde_roundTrip _ _
  have correct : C.Correct := Primitives.marking_correct _
  let v : Vault := ⟨1000000, []⟩
  obtain ⟨before, w, r, receipt, row, after, reached, quiet, current, signed, timestamp, payouts, request, payee,
    amount, pending, known, idle, submitted⟩ := reach_sample_working
      Sidecar.sampleConfig (Vector.replicate 32 0) faithful correct (Vector.replicate 32 0) v
  obtain ⟨call, v', built, settled⟩ := sample_settles correct signed timestamp payouts
  rw [← payee, ← amount] at built
  let job : SettlementJob := ⟨receipt.requestId, X.receiptToString receipt⟩
  let id : TaskId := .settlement 0 job
  let again : TaskId := .settlement 1 job
  let pays : Call := .settle receipt row.payeeSuiAddress row.amountNanox.toUInt64
  obtain ⟨last, recording⟩ := submitted "5xJ"
  let paid : World C := w.setTask id (.call (.markSubmitted row.id "5xJ") last)
  let marked : World C := { paid with payments := paid.payments.markSubmitted row.id "5xJ" }.setTask id (last (.ok ()))
  let repeated : World C := marked.setTask again (runSettlement X job)
  have first : ChainStep X Sidecar.sampleConfig (Vector.replicate 32 0) (w.setTask id (.call pays after), v)
      (.call id pays (.ok "5xJ"), true) (paid, v') := chainStep_pays recording built settled
  have second : ChainStep X Sidecar.sampleConfig (Vector.replicate 32 0) (paid, v')
      (.call id (.markSubmitted row.id "5xJ") (.ok ()), false) (marked, v') :=
    .other (.call (World.setTask_same _ _ _) rfl) rfl
  have rows : marked.payments = [⟨row, .submitted, some "5xJ"⟩] := by
    change w.payments.markSubmitted row.id "5xJ" = _
    rw [pending]
    simp [Payments.markSubmitted, Payments.update]
  have free : marked.tasks again = .done () := by
    have apart : again ≠ id := by simp [again, id]
    have still : paid.tasks again = .done () := (World.setTask_other apart _).trans (idle again)
    exact (World.setTask_other apart (last (.ok ()))).trans still
  have stored : (⟨job, false⟩ : StoredJob) ∈ marked.storage := known
  have execution : Step X marked (.execute 1 job) repeated := .execute free stored
  have third : ChainStep X Sidecar.sampleConfig (Vector.replicate 32 0) (marked, v') (.execute 1 job, false)
      (repeated, v') := .other execution rfl
  have selecting : ∃ next, repeated.tasks again = .call (.selectPending job.requestId) next :=
    ⟨_, World.setTask_same _ _ _⟩
  obtain ⟨next, selecting⟩ := selecting
  have nothing : repeated.perform X (.selectPending job.requestId) (.ok []) = some repeated := by
    apply if_pos
    change [] = marked.payments.pendingForRequest job.requestId
    rw [rows]
    simp [Payments.pendingForRequest]
  have fourth : ChainStep X Sidecar.sampleConfig (Vector.replicate 32 0) (repeated, v')
      (.call again (.selectPending job.requestId) (.ok []), false) (repeated.setTask again (next (.ok [])), v') :=
    .other (.call selecting nothing) rfl
  let trace : ChainTrace C := before ++ [((w.setTask id (.call pays after), v), (.call id pays (.ok "5xJ"), true)),
    ((paid, v'), (.call id (.markSubmitted row.id "5xJ") (.ok ()), false)), ((marked, v'), (.execute 1 job, false)),
    ((repeated, v'), (.call again (.selectPending job.requestId) (.ok []), false))]
  have run : ChainRuns X _ _ _ trace _ := reached.append (.cons first (.cons second (.cons third (.one fourth))))
  have member : (⟨row, .submitted, some "5xJ"⟩ : Payment) ∈ marked.payments := by
    rw [rows]
    exact List.mem_singleton_self _
  have landed : Landed X trace row.id := ⟨.ok "5xJ", before, _, 0, _, _, _, _, _, rfl, current⟩
  refine ⟨trace, _, _, _, job, receipt, _, _, run, List.mem_append_right _ List.mem_cons_self,
    List.mem_append_right _ (List.mem_cons_of_mem _ (List.mem_cons_of_mem _ (List.mem_cons_of_mem _
      List.mem_cons_self))), _, member, landed, (paid_rows_not_failed X _ _ _ _ _ _ _ _ run ?_).1 _ member landed⟩
  intro other _
  apply not_errored
  rw [offChain, List.map_append]
  simp only [List.forall_mem_append]
  refine ⟨fun step inside _ _ _ _ _ shape => ?_, by simp [pays]⟩
  have off := quiet step inside
  rw [shape] at off
  cases off

end Coordinator
