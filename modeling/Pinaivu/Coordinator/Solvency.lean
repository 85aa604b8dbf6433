import Pinaivu.Store.Purse
import Pinaivu.Coordinator.PaidRows
import Pinaivu.Coordinator.JobQueue

namespace Onchain

open Protocol Crypto Store Sidecar

variable {C : Primitives} {key : C.SigningKey} {enclave : PublicKey} {r receipt : RoutingReceipt} {config : Config}
  {payee : String} {amount : UInt64} {call : SettleCall} {v v' : Vault}

/-- What the vault pays at most once: a request at an address. -/
abbrev Slot := List UInt8 × Vector UInt8 32

def Vault.purse (v : Vault) : Purse Slot where
  balance := v.treasury
  paid := v.settled.map fun s => ((s.requestId, s.payee), s.amount.toNat)

def promises (receipt : RoutingReceipt) : List (Slot × Nat) :=
  receipt.payouts.filterMap fun payout => (pureAddress payout.suiAddress).map fun address =>
    ((receipt.requestId.bytes.toList, address), payout.amountNanox.toNat)

theorem mem_promises (listed : ⟨payee, amount⟩ ∈ receipt.payouts) {address : Vector UInt8 32}
    (accepted : pureAddress payee = some address) :
    ((receipt.requestId.bytes.toList, address), amount.toNat) ∈ promises receipt := by
  apply List.mem_filterMap.mpr
  refine ⟨_, listed, ?_⟩
  rw [accepted]
  rfl

theorem Vault.hasSettled_iff (v : Vault) (requestId : List UInt8) (payee : Vector UInt8 32) :
    v.hasSettled requestId payee = true ↔ (requestId, payee) ∈ v.purse.paid.map (·.1) := by
  simp [Vault.hasSettled, Vault.purse]

theorem Vault.purse_pay (v : Vault) (requestId : List UInt8) (payee : Vector UInt8 32) (amount : UInt64) :
    (v.pay requestId payee amount).purse =
      ⟨v.purse.balance - amount.toNat, v.purse.paid ++ [((requestId, payee), amount.toNat)]⟩ := by
  simp [Vault.purse, Vault.pay]

theorem Vault.settle_some (settled : v.settle C enclave call = some v') :
    v.hasSettled call.requestId call.payee = false ∧ verifyCompletionReceipt C enclave call = true ∧
      call.amount.toNat ≤ v.treasury ∧ v' = v.pay call.requestId call.payee call.amount := by
  unfold Vault.settle at settled
  split at settled
  · cases settled
  rename_i fresh
  split at settled
  · cases settled
  rename_i verified
  split at settled
  · cases settled
  split at settled
  · cases settled
  rename_i funds
  cases settled
  exact ⟨by simpa using fresh, by simpa using verified, Nat.not_lt.mp funds, rfl⟩

theorem settle_pays (correct : C.Correct) (signed : r.sign C key = some receipt)
    (binds : ∀ message, receipt.intentMessageBytes = some message → C.Binds key message)
    (listed : ⟨payee, amount⟩ ∈ receipt.payouts)
    (built : postSettle config (settleReq receipt payee amount).receive = some call)
    (settled : v.settle C (C.verifyingKey key) call = some v') :
    Purse.Pays (promises receipt) v.purse v'.purse := by
  obtain ⟨fresh, verified, funds, rfl⟩ := Vault.settle_some settled
  have passed : PassedOn receipt := (verifyCompletionReceipt_iff correct signed binds built).mp verified
  obtain ⟨_, address, value, _⟩ := postSettle_arguments built
  rw [pureU64_exact (passed.2 _ listed).2, Option.some.injEq] at value
  have request := (postSettle_eq_some built).1
  have promised := mem_promises listed address
  rw [Vault.purse_pay]
  apply Purse.Pays.pay
  · rw [request, ← value]
    exact promised
  · rw [← Vault.hasSettled_iff, fresh]
    exact Bool.false_ne_true
  · exact funds

end Onchain

namespace Coordinator

open Protocol Crypto Async Onchain Store

variable {C : Primitives} {X : Externals} {key : C.SigningKey} {pgPool settlementTx : Bool} {archive : ReceiptArchive}
  {ttl : UInt64} {w m n : World C} {trace : List (World C × Label)}

def passesReceipt (X : Externals) (trace : List (World C × Label)) : Call → Prop
  | .settle receipt _ _ => ∃ job, JobOfAck X trace job ∧ X.receiptFromStr job.receiptJson = .ok receipt
  | _ => True

theorem begins_passesReceipt {label : Label} {id : TaskId} {task : Task Unit} (kept : Stemming X trace m)
    (begun : Begins X m label id task) :
    task.Sat (passesReceipt X trace) (fun _ _ => True) fun _ => True := by
  have plain (op : Call) (easy : op.plain) : passesReceipt X trace op := by
    cases op with
    | settle receipt payee amount => cases easy
    | _ => exact trivial
  have owned := begins_owned begun
  cases begun with
  | execute k stored known =>
    apply runSettlement_sat stored.job plain
    intro rows receipt _ parsed row _
    exact ⟨stored.job, kept.storage stored known, parsed⟩
  | _ =>
    apply owned.mono
    intro op own
    cases op with
    | settle receipt payee amount => cases own
    | _ => exact trivial

theorem mem_archivedReceipts {id : TaskId} {receipt : RoutingReceipt}
    (member : (m, .call id (.putReceipt receipt) (.ok ())) ∈ trace) : receipt ∈ archivedReceipts trace :=
  List.mem_filterMap.mpr ⟨_, List.mem_filterMap.mpr ⟨_, member, rfl⟩, rfl⟩

theorem settle_receipt (faithful : X.RoundTrip) (correct : C.Correct)
    (run : Runs X (World.start (EventLoop.new key pgPool settlementTx) archive ttl) trace w)
    (once : (publishedIds trace).Nodup) {id : TaskId} {receipt : RoutingReceipt} {payee : String} {amount : UInt64}
    {answer : Except String String} (member : (m, .call id (.settle receipt payee amount) answer) ∈ trace) :
    receipt ∈ archivedReceipts trace ∧ (∃ r : RoutingReceipt, r.sign C key = some receipt) ∧ ⟨payee, amount⟩ ∈ receipt.payouts := by
  have empty : Stemming X trace (World.start (EventLoop.new key pgPool settlementTx) archive ttl) :=
    ⟨by simp [World.start], by simp [World.start], by simp [World.start], fun _ => trivial⟩
  have kept : Stemming X trace m ∧ TasksSat (fun _ => passesReceipt X trace) (fun _ _ => True) m := by
    refine run.invariant_at (I := fun m => Stemming X trace m ∧
      TasksSat (fun _ => passesReceipt X trace) (fun _ _ => True) m) ⟨empty, fun _ => trivial⟩ ?_ member
    intro x label y inside step kept
    obtain ⟨stems, passes⟩ := kept
    refine ⟨stems.step run (fun _ => rfl) once faithful correct inside step, ?_⟩
    exact passes.step step (fun _ _ begun => begins_passesReceipt stems begun) fun _ _ _ _ _ _ _ => trivial
  obtain ⟨n, step⟩ := run.step_of_mem member
  obtain ⟨k, job, rfl, _, _, listed⟩ := kept.1.tasks.guaranteed step
  obtain ⟨_, ⟨x, sender, ack, channel, nowMs, handed, accepted, _, rfl⟩, parsed⟩ := kept.2.guaranteed step
  rw [faithful.text, Except.ok.injEq] at parsed
  subst parsed
  obtain ⟨y, writer, stored⟩ := accepted.stored
  obtain ⟨before, after, shape⟩ := List.append_of_mem accepted.delivered
  have enclave : x.loop.enclaveKey = key := (run_options (run.split shape).1).1
  have signed := accepted.signed
  rw [EventLoop.receiptFor, enclave] at signed
  exact ⟨mem_archivedReceipts stored, ⟨_, signed⟩, listed⟩

def promised (trace : List (World C × Label)) : List (Slot × Nat) := (archivedReceipts trace).flatMap promises

/-- Ideal signatures on the receipts that list payouts. -/
def ReceiptsBound (key : C.SigningKey) (trace : List (World C × Label)) : Prop :=
  ∀ receipt ∈ archivedReceipts trace, payable receipt = true →
    ∀ message, receipt.intentMessageBytes = some message → C.Binds key message

variable {config : Sidecar.Config} {start : Vault} {chain : ChainTrace C} {s : World C × Vault}

/-- Seen as a purse, the vault of a whole run pays what the receipts promise and does nothing else. -/
theorem vault_refines_purse (faithful : X.RoundTrip) (correct : C.Correct)
    (run : ChainRuns X config (C.verifyingKey key)
      (World.start (EventLoop.new key pgPool settlementTx) archive ttl, start) chain s)
    (once : (publishedIds (offChain chain)).Nodup) (bound : ReceiptsBound key (offChain chain)) :
    Relation.ReflTransGen (Purse.Pays (promised (offChain chain))) start.purse s.2.purse := by
  refine run.invariant (I := fun s => Relation.ReflTransGen (Purse.Pays (promised (offChain chain)))
    start.purse s.2.purse) .refl ?_
  intro m label n member step kept
  cases step with
  | other step off => exact kept
  | @settle w w' v v' id receipt payee amount answer landed step outcome =>
    have called : (w, Label.call id (.settle receipt payee amount) answer) ∈ offChain chain :=
      List.mem_map.mpr ⟨_, member, rfl⟩
    obtain ⟨handed, ⟨r, signed⟩, listed⟩ := settle_receipt faithful correct (offChain_run run) once called
    have lines : payable receipt = true := by
      cases found : receipt.payouts with
      | nil =>
        rw [found] at listed
        cases listed
      | cons first rest => rw [payable, found]; rfl
    have inside : promises receipt ⊆ promised (offChain chain) := fun _ due => List.mem_flatMap.mpr ⟨_, handed, due⟩
    have pays {call : Sidecar.SettleCall} (built : Sidecar.postSettle config
        (Sidecar.settleReq receipt payee amount).receive = some call)
        (settled : v.settle C (C.verifyingKey key) call = some v') :
        Relation.ReflTransGen (Purse.Pays (promised (offChain chain))) start.purse v'.purse :=
      kept.tail ((settle_pays correct signed (bound receipt handed lines) listed built settled).mono inside)
    cases outcome with
    | paid built settled => exact pays built settled
    | replyLost built settled => exact pays built settled
    | refused e => exact kept

/-- The vault pays what the enclave has signed and no more: whatever the workers repeat and whatever answers are
    lost, the payments are promises of archived receipts, each paid at most once, and they account for
    all that has left the treasury. If it started with enough for all promises, it has enough for each one still open. -/
theorem vault_pays_promises (X : Externals) (faithful : X.RoundTrip) (correct : C.Correct) (config : Sidecar.Config)
    (key : C.SigningKey) (pgPool settlementTx : Bool) (archive : ReceiptArchive) (ttl : UInt64) (start : Vault)
    (trace : ChainTrace C) (s : World C × Vault)
    (run : ChainRuns X config (C.verifyingKey key)
      (World.start (EventLoop.new key pgPool settlementTx) archive ttl, start) trace s)
    (once : (publishedIds (offChain trace)).Nodup) (bound : ReceiptsBound key (offChain trace)) :
    (∃ paid : List (Slot × Nat), s.2.purse.paid = start.purse.paid ++ paid ∧
      paid.Subperm (promised (offChain trace)) ∧ s.2.treasury + outlay paid = start.treasury ∧
      (paid.map (·.1)).Nodup ∧ ∀ payment ∈ paid, payment.1 ∉ start.purse.paid.map (·.1)) ∧
    (outlay (promised (offChain trace)) ≤ start.treasury → ∀ payment ∈ promised (offChain trace),
      payment.1 ∉ s.2.purse.paid.map (·.1) → payment.2 ≤ s.2.treasury) := by
  obtain ⟨paid, drawn⟩ := Purse.drawn_of_pays (vault_refines_purse faithful correct run once bound)
  constructor
  · exact ⟨paid, drawn.history, drawn.subperm, drawn.balance, drawn.once, drawn.fresh⟩
  · intro enough payment due unpaid
    exact drawn.funds enough due unpaid

def paidReceipt : RoutingReceipt :=
  { sampleReceipt with
    requestId := sampleRequest.requestId
    aggregatedOutputHash := Vector.replicate 32 9
    payouts := [⟨"0x0abc", 1000⟩]
    timestampMs := 1700000010000 }

theorem paidReceipt_binds (key : PublicKey) {receipt : RoutingReceipt}
    (request : receipt.requestId = sampleRequest.requestId) (timestamp : receipt.timestampMs = 1700000010000)
    (output : receipt.aggregatedOutputHash = Vector.replicate 32 9) (payouts : receipt.payouts = [⟨"0x0abc", 1000⟩])
    (message : List UInt8) (encoded : receipt.intentMessageBytes = some message) :
    (Primitives.marking (paidReceipt.intentMessageBytes.getD [])).Binds key message := by
  have same : receipt.intentMessage = paidReceipt.intentMessage := by
    simp only [RoutingReceipt.intentMessage, request, timestamp, output, payouts, paidReceipt]
  have marked : paidReceipt.intentMessageBytes.getD [] = message := by
    rw [RoutingReceipt.intentMessageBytes, same] at encoded
    rw [RoutingReceipt.intentMessageBytes, encoded, Option.getD_some]
  rw [marked]
  exact Primitives.marking_binds _ _

theorem sample_promise_paid :
    let C := Primitives.marking (paidReceipt.intentMessageBytes.getD [])
    let X := Externals.serde (fun _ => none) fun text => .ok ⟨text⟩
    ∃ (trace : ChainTrace C) (s : World C × Vault),
      ChainRuns X Sidecar.sampleConfig (Vector.replicate 32 0)
        (World.start (EventLoop.new (C := C) (Vector.replicate 32 0) true true) (.postgres fun _ => none) 60000,
          ⟨1000000, []⟩) trace s ∧
      s.2.purse.paid ≠ [] ∧ s.2.purse.paid.Subperm (promised (offChain trace)) ∧
      s.2.treasury + outlay s.2.purse.paid = 1000000 := by
  intro C X
  have faithful : X.RoundTrip := Externals.serde_roundTrip _ _
  have correct : C.Correct := Primitives.marking_correct _
  let key : C.SigningKey := Vector.replicate 32 0
  let v : Vault := ⟨1000000, []⟩
  obtain ⟨before, queued, r, receipt, left, published, smooth, _, signed, request, timestamp, output, payouts, pending,
    jobs, empty, free⟩ := reach_sample_receipt X correct key
  obtain ⟨taking, holding, w, right, payments, storage, tasks⟩ := reach_stored X queued (free _) jobs
  let row := PayoutLine.row ⟨Vector.replicate 16 7⟩ receipt.requestId ⟨"12D3KooWPeerNode1", "0x0abc", 1000⟩
  let job : SettlementJob := ⟨receipt.requestId, X.receiptToString receipt⟩
  have known : w.storage = [⟨job, false⟩] := by
    rw [storage, empty]
    rfl
  have idle : ∀ id, w.tasks id = .done () := by
    rw [tasks]
    exact free
  let id : TaskId := .settlement 0 job
  let pays : Call := .settle receipt row.payeeSuiAddress row.amountNanox.toUInt64
  obtain ⟨m, after, work, submitted, _⟩ := reach_working X faithful w 0 (idle _)
    (known ▸ List.mem_singleton_self _) (payments.trans pending) rfl
  let onward : List (World C × Label) := [(queued, .forward), (taking, .call .forwarder .recvJob job),
    (holding, .call .forwarder (.pushRequest job) (.ok ())), (w, .execute 0 job),
    (m, .call id (.selectPending receipt.requestId) (.ok [row]))]
  have run : Runs X _ (before ++ onward) _ := left.append (right.append work)
  have quiet : ∀ step ∈ before ++ onward, step.2.paysOut = false :=
    List.forall_mem_append.mpr ⟨(unsettled left empty).2, by simp [onward, Label.paysOut]⟩
  obtain ⟨chain, chained, same⟩ := chainRuns_of_off Sidecar.sampleConfig (C.verifyingKey key) run quiet v
  obtain ⟨call, v', built, settled⟩ := sample_settles correct signed timestamp payouts
  have amount : row.amountNanox.toUInt64 = 1000 := PayoutLine.row_amount _ _ _
  obtain ⟨last, recording⟩ := submitted "5xJ"
  have paying : ChainStep X Sidecar.sampleConfig (C.verifyingKey key) (w.setTask id (.call pays after), v)
      (.call id pays (.ok "5xJ"), true)
      (w.setTask id (.call (.markSubmitted row.id "5xJ") last), v') := by
    rw [← amount] at built
    exact chainStep_pays recording built settled
  let trace : ChainTrace C := chain ++ [((w.setTask id (.call pays after), v), (.call id pays (.ok "5xJ"), true))]
  have whole : offChain trace = before ++ onward ++ [(w.setTask id (.call pays after), .call id pays (.ok "5xJ"))] := by
    rw [offChain_snoc, same]
  have once : (publishedIds (offChain trace)).Nodup := by
    rw [whole, List.append_assoc, publishedIds_append, published]
    exact List.nodup_singleton _
  have handed : archivedReceipts (offChain trace) = archivedReceipts before := by
    rw [whole, List.append_assoc, archivedReceipts, archivedReceipts, callsMade, List.filterMap_append,
      List.filterMap_append]
    exact List.append_nil _
  have alone : [settlementJob X receipt] = ((archivedReceipts before).filter payable).map (settlementJob X) := by
    rw [← jobs_in_full left (free _) rfl rfl smooth, empty, free, jobs]
    rfl
  have bound : ReceiptsBound key (offChain trace) := by
    intro other member lines
    rw [handed] at member
    have job' := List.mem_map_of_mem (f := settlementJob X) (List.mem_filter.mpr ⟨member, lines⟩)
    rw [← alone, List.mem_singleton, settlementJob, settlementJob, SettlementJob.mk.injEq] at job'
    have text := faithful.text other
    rw [job'.2, faithful.text, Except.ok.injEq] at text
    rw [← text]
    exact paidReceipt_binds key request timestamp output payouts
  obtain ⟨⟨paid, history, inside, balance, _⟩, _⟩ := vault_pays_promises X faithful correct Sidecar.sampleConfig key true
    true _ _ v trace _ (chained.snoc paying) once bound
  refine ⟨trace, _, chained.snoc paying, ?_⟩
  have shape : v'.purse.paid = paid := history
  rw [shape]
  refine ⟨?_, inside, balance⟩
  obtain ⟨_, _, _, moved⟩ := Vault.settle_some settled
  rw [← shape, moved, Vault.purse_pay]
  exact List.append_ne_nil_of_right_ne_nil _ (List.cons_ne_nil _ _)

end Coordinator
