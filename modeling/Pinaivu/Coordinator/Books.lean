import Mathlib.Data.List.Flatten
import Pinaivu.Coordinator.AckAnswers
import Pinaivu.Coordinator.Coverage
import Pinaivu.Coordinator.Turns

namespace Coordinator

open Protocol Crypto Async

variable {C : Primitives} {X : Externals} {loop : EventLoop C} {archive : ReceiptArchive} {ttl : UInt64}
  {w m n : World C} {trace : List (World C × Label)} {label : Label}

/-- For which request a payment goes to which address, and how much; the amount as `BIGINT` holds it. -/
abbrev Due := RequestId × String × Int64

def PendingPayment.owes (row : PendingPayment) : Due := (row.requestId, row.payeeSuiAddress, row.amountNanox)

def PayoutLine.owes (r : RequestId) (line : PayoutLine) : Due := (r, line.suiAddress, line.amountNanox.toInt64)

def dues (receipt : RoutingReceipt) : List Due :=
  receipt.payouts.map fun payout => (receipt.requestId, payout.suiAddress, payout.amountNanox.toInt64)

def payable (receipt : RoutingReceipt) : Bool := !receipt.payouts.isEmpty

def settlementJob (X : Externals) (receipt : RoutingReceipt) : SettlementJob :=
  ⟨receipt.requestId, X.receiptToString receipt⟩

def inserted : (Σ op, Answer op) → Option PendingPayment
  | ⟨.insertPayment row, .ok ()⟩ => some row
  | _ => none

def offered : (Σ op, Answer op) → Option SettlementJob
  | ⟨.trySendJob job, _⟩ => some job
  | _ => none

def InsertsSucceed (calls : List (Σ op, Answer op)) : Prop := ∀ row e, ⟨.insertPayment row, .error e⟩ ∉ calls

theorem InsertsSucceed.of_subset {calls more : List (Σ op, Answer op)} (fine : InsertsSucceed more)
    (inside : calls ⊆ more) : InsertsSucceed calls := fun row e member => fine row e (inside member)

theorem insertPending_path {r : RequestId} {lines : List PayoutLine} {calls : List (Σ op, Answer op)}
    {result : Except String Unit} (path : (insertPending r lines).Follows calls (.done result)) :
    calls.filterMap offered = [] ∧ ((calls.filterMap inserted).map (·.owes)).Sublist (lines.map (·.owes r)) ∧
      (InsertsSucceed calls → result = .ok () ∧ (calls.filterMap inserted).map (·.owes) = lines.map (·.owes r)) := by
  induction lines generalizing calls with
  | nil =>
    cases path
    exact ⟨rfl, .refl _, fun _ => ⟨rfl, rfl⟩⟩
  | cons line lines ih =>
    replace path := Routine.Follows.perform_done path
    obtain ⟨id, _, rfl, path⟩ := path
    replace path := Routine.Follows.perform_done path
    obtain ⟨answer, rest, rfl, path⟩ := path
    cases answer with
    | error e =>
      cases path
      exact ⟨rfl, List.nil_sublist _, fun fine => absurd (by simp) (fine (line.row id r) e)⟩
    | ok =>
      obtain ⟨silent, rows, all⟩ := ih path
      refine ⟨silent, rows.cons_cons _, fun fine => ?_⟩
      obtain ⟨done, same⟩ := all (fine.of_subset fun call member => by simp [member])
      exact ⟨done, congrArg (line.owes r :: ·) same⟩

theorem queuePayments_path {self : EventLoop C} {receipt : RoutingReceipt} {lines : List PayoutLine}
    {calls : List (Σ op, Answer op)} (path : (self.queuePayments X receipt lines).Follows calls (.done ())) :
    ((calls.filterMap inserted).map (·.owes)).Sublist (lines.map (·.owes receipt.requestId)) ∧
      (calls.filterMap offered).Sublist (if lines = [] then [] else [settlementJob X receipt]) ∧
      (self.pgPool = true → InsertsSucceed calls →
        (calls.filterMap inserted).map (·.owes) = lines.map (·.owes receipt.requestId) ∧
        (self.settlementTx = true →
          calls.filterMap offered = if lines = [] then [] else [settlementJob X receipt])) := by
  unfold EventLoop.queuePayments at path
  split at path
  · rename_i queued
    have some : lines ≠ [] := by
      intro same
      subst same
      simp at queued
    replace path := Routine.Follows.seq_done path
    obtain ⟨first, rest, result, rfl, inserting, path⟩ := path
    obtain ⟨silent, rows, all⟩ := insertPending_path inserting
    rw [List.filterMap_append, List.filterMap_append, silent, if_neg some]
    cases result with
    | error e =>
      cases path
      simp only [List.filterMap_nil, List.append_nil]
      refine ⟨rows, List.nil_sublist _, fun _ fine => ?_⟩
      cases (all fine).1
    | ok =>
      change (self.enqueueSettlement X receipt).Follows rest (.done ()) at path
      unfold EventLoop.enqueueSettlement at path
      split at path
      · obtain ⟨answer, _, rfl, last⟩ := Routine.Follows.perform_done path
        cases last
        have unwritten : [⟨.trySendJob (settlementJob X receipt), answer⟩].filterMap inserted = [] := rfl
        rw [settlementJob] at unwritten
        rw [unwritten, List.append_nil]
        exact ⟨rows, .refl _, fun _ fine =>
          ⟨(all (fine.of_subset (List.subset_append_left _ _))).2, fun _ => rfl⟩⟩
      · rename_i unqueued
        cases path
        simp only [List.filterMap_nil, List.append_nil]
        exact ⟨rows, List.nil_sublist _, fun _ fine => ⟨(all fine).2, fun queue => absurd queue unqueued⟩⟩
  · rename_i unqueued
    cases path
    refine ⟨List.nil_sublist _, List.nil_sublist _, fun pool _ => ?_⟩
    have nothing : lines = [] := by simpa [pool] using unqueued
    subst nothing
    exact ⟨rfl, fun _ => rfl⟩

theorem inserted_reads : Reads inserted .row := by
  intro op answer other
  cases op with
  | insertPayment row => exact absurd rfl other
  | _ => rfl

theorem offered_reads : Reads offered .job := by
  intro op answer other
  cases op with
  | trySendJob job => exact absurd rfl other
  | _ => rfl

/-- What handling an ack writes for it, against the receipt it stores. -/
structure Booked (X : Externals) (calls : List (Σ op, Answer op)) : Prop where
  rows : ((calls.filterMap inserted).map (·.owes)).Sublist ((calls.filterMap archived).flatMap dues)
  jobs : (calls.filterMap offered).Sublist (((calls.filterMap archived).filter payable).map (settlementJob X))

structure BookedInFull (X : Externals) (queue : Bool) (calls : List (Σ op, Answer op)) : Prop where
  rows : (calls.filterMap inserted).map (·.owes) = (calls.filterMap archived).flatMap dues
  jobs : queue = true →
    calls.filterMap offered = ((calls.filterMap archived).filter payable).map (settlementJob X)

theorem TakenAck.Handled.booked {a : TakenAck C} {calls : List (Σ op, Answer op)} (handled : a.Handled X calls) :
    Booked X calls ∧
      (a.loop.pgPool = true → InsertsSucceed calls → BookedInFull X a.loop.settlementTx calls) := by
  cases handled with
  | refused refusal => exact ⟨⟨.refl _, .refl _⟩, fun _ _ => ⟨rfl, fun _ => rfl⟩⟩
  | unstored accepted signed => exact ⟨⟨.refl _, .refl _⟩, fun _ _ => ⟨rfl, fun _ => rfl⟩⟩
  | @stored receipt warm pay accepted signed warming paying =>
    have payouts : receipt.payouts = a.lines.map fun line => ⟨line.suiAddress, line.amountNanox⟩ :=
      (receiptFor_eq_some signed).2.2
    have due : dues receipt = a.lines.map (·.owes receipt.requestId) := by
      rw [dues, payouts, List.map_map]
      rfl
    have job : ([receipt].filter payable).map (settlementJob X) =
        if a.lines = [] then [] else [settlementJob X receipt] := by
      cases found : a.lines <;> simp [payable, payouts, found]
    have stored : (⟨.putReceipt receipt, .ok ()⟩ :: (warm ++ (pay ++
        [⟨.sendResponse a.channel (.ok receipt), ()⟩]))).filterMap archived = [receipt] := by
      rw [archived_reads.accepted nofun warming, archived_reads.unbooked nofun nofun paying]
      rfl
    obtain ⟨rows, jobs, full⟩ := queuePayments_path paying
    have written : (⟨.putReceipt receipt, .ok ()⟩ :: (warm ++ (pay ++
        [⟨.sendResponse a.channel (.ok receipt), ()⟩]))).filterMap inserted = pay.filterMap inserted := by
      rw [inserted_reads.accepted nofun warming]
      exact List.append_nil _
    have sent : (⟨.putReceipt receipt, .ok ()⟩ :: (warm ++ (pay ++
        [⟨.sendResponse a.channel (.ok receipt), ()⟩]))).filterMap offered = pay.filterMap offered := by
      rw [offered_reads.accepted nofun warming]
      exact List.append_nil _
    rw [← due, ← job] at full
    constructor
    · constructor <;> simp only [written, sent, stored, List.flatMap_singleton]
      · exact due ▸ rows
      · exact job ▸ jobs
    · intro pool fine
      have inside : pay ⊆ ⟨.putReceipt receipt, .ok ()⟩ :: (warm ++ (pay ++
          [⟨.sendResponse a.channel (.ok receipt), ()⟩])) := fun call member => by simp [member]
      obtain ⟨rows, jobs⟩ := full pool (fine.of_subset inside)
      constructor <;> simp only [written, sent, stored, List.flatMap_singleton]
      · exact rows
      · exact jobs

theorem Turn.booked {turn : Turn C} (whole : turn.Leaves X (.done ())) :
    Booked X turn.calls ∧ (turn.world.loop.pgPool = true → InsertsSucceed turn.calls →
      BookedInFull X turn.world.loop.settlementTx turn.calls) := by
  rcases Turn.recorded whole with ⟨a, taken, handled⟩ | ⟨_, quiet⟩
  · rw [← Turn.ack_loop taken]
    exact handled.booked
  · have rows := inserted_reads.quiet quiet
    have jobs := offered_reads.quiet quiet
    have receipts := archived_reads.quiet quiet
    constructor
    · constructor <;> simp [rows, jobs, receipts]
    · intro _ _
      constructor <;> simp [rows, jobs, receipts]

def insertedRows (trace : List (World C × Label)) : List PendingPayment := (callsMade trace).filterMap inserted

theorem run_booked (run : Runs X (World.start loop archive ttl) trace w) (idle : w.tasks .eventLoop = .done ()) :
    Booked X (callsMade trace) ∧ (loop.pgPool = true → InsertsSucceed (callsMade trace) →
      BookedInFull X loop.settlementTx (callsMade trace)) := by
  obtain ⟨turns, whole, _, recorded⟩ := recorded_turns run idle
  have rows := recorded _ _ _ inserted_reads
  have jobs := recorded _ _ _ offered_reads
  have receipts := recorded _ _ _ archived_reads
  constructor
  · constructor
    · rw [rows, receipts, List.map_flatMap, List.flatMap_assoc]
      exact .flatMap_right _ fun turn member => (Turn.booked (whole turn member).1).1.rows
    · rw [jobs, receipts, List.filter_flatMap, List.map_flatMap]
      exact .flatMap_right _ fun turn member => (Turn.booked (whole turn member).1).1.jobs
  · intro pool fine
    have full (turn : Turn C) (member : turn ∈ turns) : BookedInFull X loop.settlementTx turn.calls := by
      obtain ⟨leaves, taken, inside⟩ := whole turn member
      obtain ⟨_, pool', queue⟩ := options_at run taken
      rw [← queue]
      exact (Turn.booked leaves).2 (pool'.trans pool) (fine.of_subset inside)
    constructor
    · rw [rows, receipts, List.map_flatMap, List.flatMap_assoc]
      exact List.flatMap_congr fun turn member => (full turn member).rows
    · intro queue
      rw [jobs, receipts, List.filter_flatMap, List.map_flatMap]
      exact List.flatMap_congr fun turn member => (full turn member).jobs queue

theorem insertedRows_eq (trace : List (World C × Label)) : insertedRows trace = trace.filterMap (·.2.inserts) := by
  rw [insertedRows, callsMade, List.filterMap_filterMap]
  apply List.filterMap_congr
  intro step _
  obtain ⟨m, label⟩ := step
  cases label with
  | call id op answer =>
    cases op with
    | insertPayment row => cases answer <;> rfl
    | _ => rfl
  | _ => rfl

theorem insertedRows_snoc (trace : List (World C × Label)) (m : World C) (label : Label) :
    insertedRows (trace ++ [(m, label)]) = insertedRows trace ++ (label.called.bind inserted).toList := by
  rw [insertedRows, callsMade_snoc, List.filterMap_append]
  cases called : label.called with
  | none => rfl
  | some made => cases found : inserted made <;> simp [found, insertedRows]

theorem insert_rows (table : Payments) (row : PendingPayment) : (table.insert row).map (·.row) =
    if row.id ∈ table.map (·.row.id) then table.map (·.row) else table.map (·.row) ++ [row] := by
  unfold Payments.insert
  by_cases known : row.id ∈ table.map (·.row.id)
  · have found : table.any (·.row.id = row.id) = true := by
      obtain ⟨payment, member, same⟩ := List.mem_map.mp known
      exact List.any_eq_true.mpr ⟨payment, member, by simpa using same⟩
    rw [if_pos found, if_pos known]
  · have absent : ¬ table.any (·.row.id = row.id) = true := by
      intro found
      obtain ⟨payment, member, same⟩ := List.any_eq_true.mp found
      exact known (List.mem_map.mpr ⟨payment, member, by simpa using same⟩)
    rw [if_neg absent, if_neg known, List.map_append]
    rfl

theorem update_rows (table : Payments) (id : Uuid) {change : Payment → Payment}
    (kept : ∀ payment, (change payment).row = payment.row) : (table.update id change).map (·.row) = table.map (·.row) := by
  rw [Payments.update, List.map_map]
  apply List.map_congr_left
  intro payment _
  simp only [Function.comp]
  split
  · exact kept payment
  · rfl

theorem step_rows (step : Step X m label n) : n.payments.map (·.row) =
    (label.called.bind inserted).elim (m.payments.map (·.row)) fun row => (m.payments.insert row).map (·.row) := by
  cases step with
  | cancel k => rw [(dropChat_keeps m k).2.2.2.1]; rfl
  | @call w'' id op next answer waiting answered =>
    change w''.payments.map (·.row) = _
    cases performed answered with
    | silent quiet =>
      cases op with
      | insertPayment row =>
        cases answer with
        | ok => cases quiet
        | error e => rfl
      | _ => rfl
    | submitted id txDigest => exact update_rows _ _ fun _ => rfl
    | failed id => exact update_rows _ _ fun _ => rfl
    | _ => rfl
  | _ => rfl

theorem rows_written (run : Runs X (World.start loop archive ttl) trace w) :
    (w.payments.map (·.row)).Sublist (insertedRows trace) ∧
      (((insertedRows trace).map (·.id)).Nodup → w.payments.map (·.row) = insertedRows trace) := by
  refine run.history (I := fun trace w => (w.payments.map (·.row)).Sublist (insertedRows trace) ∧
    (((insertedRows trace).map (·.id)).Nodup → w.payments.map (·.row) = insertedRows trace)) ⟨.refl _, fun _ => rfl⟩ ?_
  intro before m label n _ _ step kept
  obtain ⟨inside, all⟩ := kept
  rw [step_rows step, insertedRows_snoc]
  cases label.called.bind inserted with
  | none => simpa using ⟨inside, all⟩
  | some row =>
    rw [Option.elim_some, Option.toList_some, insert_rows]
    constructor
    · split
      · exact inside.trans (List.sublist_append_left _ _)
      · exact inside.append (.refl _)
    · intro fresh
      rw [List.map_append, List.nodup_append] at fresh
      obtain ⟨earlier, _, apart⟩ := fresh
      have same := all earlier
      have new : row.id ∉ m.payments.map (·.row.id) := by
        intro known
        have drawn : row.id ∈ (insertedRows before).map (·.id) := by
          rw [← same, List.map_map]
          exact known
        exact apart row.id drawn row.id (by simp) rfl
      rw [if_neg new, same]

/-- The payments table mirrors the archived receipts: its rows are payouts of these, each once and in the order
    they were archived, and all of them unless the database has refused a row. -/
theorem payments_mirror_receipts (X : Externals) (loop : EventLoop C) (archive : ReceiptArchive) (ttl : UInt64)
    (w : World C) (trace : List (World C × Label)) (run : Runs X (World.start loop archive ttl) trace w)
    (idle : w.tasks .eventLoop = .done ()) :
    (w.payments.map (·.row.owes)).Sublist ((archivedReceipts trace).flatMap dues) ∧
      (loop.pgPool = true → InsertsSucceed (callsMade trace) → ((insertedRows trace).map (·.id)).Nodup →
        w.payments.map (·.row.owes) = (archivedReceipts trace).flatMap dues) := by
  obtain ⟨booked, full⟩ := run_booked run idle
  obtain ⟨inside, all⟩ := rows_written run
  have due : w.payments.map (·.row.owes) = (w.payments.map (·.row)).map (·.owes) := by
    rw [List.map_map]
    rfl
  rw [due]
  refine ⟨(inside.map _).trans booked.rows, fun pool fine fresh => ?_⟩
  rw [all fresh]
  exact (full pool fine).rows

theorem insertsSucceed_of_smooth (smooth : ∀ step ∈ trace, step.2.mishap = false) : InsertsSucceed (callsMade trace) := by
  intro row e member
  obtain ⟨⟨m, label⟩, inside, called⟩ := List.mem_filterMap.mp member
  cases label with
  | call id op answer =>
    cases called
    cases smooth _ inside
  | _ => cases called

theorem sample_payment_mirrored :
    let C := Primitives.marking []
    let X := Externals.serde (fun _ => none) fun text => .ok ⟨text⟩
    ∃ (trace : List (World C × Label)) (w : World C),
      Runs X (World.start (EventLoop.new (Vector.replicate 32 0) true true) (.postgres fun _ => none) 60000) trace w ∧
      w.payments.map (·.row.owes) = [(sampleRequest.requestId, "0x0abc", 1000)] ∧
      (archivedReceipts trace).flatMap dues = [(sampleRequest.requestId, "0x0abc", 1000)] := by
  intro C X
  obtain ⟨trace, w, _, receipt, run, _, smooth, inserted, _, request, _, _, pending, _, _, free⟩ :=
    reach_sample_queued X (Primitives.marking_correct []) (Vector.replicate 32 0)
  have owed : w.payments.map (·.row.owes) = [(sampleRequest.requestId, "0x0abc", 1000)] := by
    rw [pending, request]
    rfl
  have fresh : ((insertedRows trace).map (·.id)).Nodup := by
    rw [insertedRows_eq, inserted, pending]
    exact List.nodup_singleton _
  have mirrored := (payments_mirror_receipts X _ _ _ w trace run (free _)).2 rfl (insertsSucceed_of_smooth smooth) fresh
  exact ⟨trace, w, run, owed, mirrored ▸ owed⟩

end Coordinator
