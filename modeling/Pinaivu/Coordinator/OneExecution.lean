import Pinaivu.Coordinator.PendingRows
import Pinaivu.Protocol.ReceiptBinding

namespace Coordinator

open Protocol Crypto Async

variable {C : Primitives} {X : Externals} {w w' : World C} {calls : List (Σ op, Answer op)} {result : Except String Unit}
  {receipt : RoutingReceipt} {rows : List PendingPayment} {finished : List (PendingPayment × Except String String)}

/-- The requests sent to the sidecar, with their outcomes. -/
def settleCalls (calls : List (Σ op, Answer op)) : List (RoutingReceipt × String × UInt64 × Except String String) :=
  calls.filterMap fun
    | ⟨.settle receipt payee amount, answer⟩ => some (receipt, payee, amount, answer)
    | _ => none

def Payment.finalise (p : Payment) : Except String String → Payment
  | .ok digest => { p with status := .submitted, txDigest := some digest }
  | .error _ => { p with status := .failed }

def settleCall (receipt : RoutingReceipt) (x : PendingPayment × Except String String) :
    RoutingReceipt × String × UInt64 × Except String String :=
  (receipt, x.1.payeeSuiAddress, x.1.amountNanox.toUInt64, x.2)

/-- The calls are one for each of these rows, in their order. -/
def Settles (X : Externals) (job : SettlementJob) (tried : List (PendingPayment × Except String String))
    (calls : List (Σ op, Answer op)) : Prop :=
  tried = [] ∧ settleCalls calls = [] ∨
    ∃ receipt, X.receiptFromStr job.receiptJson = .ok receipt ∧ settleCalls calls = tried.map (settleCall receipt)

def recorded (finished : List (PendingPayment × Except String String)) (p : Payment) : Payment :=
  match finished.find? (·.1.id = p.row.id) with
  | some x => p.finalise x.2
  | none => p

@[simp] theorem Payment.finalise_row (p : Payment) (answer : Except String String) : (p.finalise answer).row = p.row := by
  cases answer <;> rfl

theorem recorded_other {p : Payment} (apart : ∀ x ∈ finished, x.1.id ≠ p.row.id) : recorded finished p = p := by
  have none : finished.find? (·.1.id = p.row.id) = none := by
    rw [List.find?_eq_none]
    intro x member
    simpa using apart x member
  rw [recorded, none]

theorem recorded_cons (x : PendingPayment × Except String String) (p : Payment) :
    recorded (x :: finished) p = if x.1.id = p.row.id then p.finalise x.2 else recorded finished p := by
  unfold recorded
  rw [List.find?_cons]
  by_cases own : x.1.id = p.row.id <;> simp [own]

theorem recorded_of_mem (distinct : (finished.map (·.1.id)).Nodup) {x : PendingPayment × Except String String}
    (member : x ∈ finished) {p : Payment} (own : p.row = x.1) : recorded finished p = p.finalise x.2 := by
  induction finished with
  | nil => cases member
  | cons y rest ih =>
    rw [List.map_cons, List.nodup_cons] at distinct
    rw [recorded_cons, own]
    rcases List.mem_cons.mp member with rfl | later
    · rw [if_pos rfl]
    · have apart : y.1.id ≠ x.1.id := by
        intro same
        exact distinct.1 (List.mem_map.mpr ⟨x, later, same.symm⟩)
      rw [if_neg apart]
      exact ih distinct.2 later

theorem recorded_after_update {table : Payments} {row : PendingPayment} {answer : Except String String}
    {change : Payment → Payment} (changed : ∀ p, change p = p.finalise answer)
    (apart : ∀ x ∈ finished, x.1.id ≠ row.id) :
    (table.update row.id change).map (recorded finished) = table.map (recorded ((row, answer) :: finished)) := by
  rw [Payments.update, List.map_map]
  refine List.map_congr_left fun p _ => ?_
  rw [recorded_cons, Function.comp_apply]
  by_cases own : p.row.id = row.id
  · rw [if_pos own, if_pos own.symm, changed]
    apply recorded_other
    rw [Payment.finalise_row, own]
    exact apart
  · rw [if_neg own, if_neg (Ne.symm own)]

theorem map_recorded_nil (table : Payments) : table.map (recorded []) = table := List.map_id table

/-- What came of the loop over `rows`: all recorded, or broken off at the first that could not be. -/
def Progress (receipt : RoutingReceipt) (rows : List PendingPayment) (calls : List (Σ op, Answer op))
    (result : Except String Unit) (finished : List (PendingPayment × Except String String)) : Prop :=
  result = .ok () ∧ finished.map (·.1) = rows ∧ settleCalls calls = finished.map (settleCall receipt) ∨
    ∃ e row rest answer, result = .error e ∧ rows = finished.map (·.1) ++ row :: rest ∧
      settleCalls calls = (finished ++ [(row, answer)]).map (settleCall receipt)

theorem Progress.rows_prefix (progress : Progress receipt rows calls result finished) : finished.map (·.1) <+: rows := by
  rcases progress with ⟨_, all, _⟩ | ⟨_, row, rest, _, _, shape, _⟩
  · exact all ▸ List.prefix_refl _
  · exact ⟨row :: rest, shape.symm⟩

theorem Progress.cons {more : List (Σ op, Answer op)} {row : PendingPayment} {answer : Except String String}
    (progress : Progress receipt rows more result finished)
    (shape : settleCalls calls = settleCall receipt (row, answer) :: settleCalls more) :
    Progress receipt (row :: rows) calls result ((row, answer) :: finished) := by
  rcases progress with ⟨ended, all, made⟩ | ⟨e, last, rest, final, failed, split, made⟩
  · refine .inl ⟨ended, ?_, ?_⟩
    · rw [List.map_cons, all]
    · rw [shape, made, List.map_cons]
  · refine .inr ⟨e, last, rest, final, failed, ?_, ?_⟩
    · rw [split, List.map_cons, List.cons_append]
    · rw [shape, made, List.cons_append, List.map_cons]

theorem settleRows_evaluates (evaluated : Routine.Evaluates (World.Answers X) (settleRows receipt rows) w calls result w')
    (distinct : (rows.map (·.id)).Nodup) :
    ∃ finished, w' = { w with payments := w.payments.map (recorded finished) } ∧
      Progress receipt rows calls result finished := by
  induction rows generalizing w calls with
  | nil =>
    cases evaluated with
    | done =>
      refine ⟨[], ?_, .inl ⟨rfl, rfl, rfl⟩⟩
      rw [map_recorded_nil]
  | cons row rows ih =>
    rw [List.map_cons, List.nodup_cons] at distinct
    have goOn (answer : Except String String) {change : Payment → Payment} {more : List (Σ op, Answer op)}
        (rest : Routine.Evaluates (World.Answers X) (settleRows receipt rows)
          { w with payments := w.payments.update row.id change } more result w')
        (changed : ∀ p, change p = p.finalise answer)
        (shape : settleCalls calls = settleCall receipt (row, answer) :: settleCalls more) :
        ∃ finished, w' = { w with payments := w.payments.map (recorded finished) } ∧
          Progress receipt (row :: rows) calls result finished := by
      obtain ⟨finished, table, progress⟩ := ih rest distinct.2
      have apart : ∀ x ∈ finished, x.1.id ≠ row.id := by
        intro x member same
        apply distinct.1
        rw [← same]
        exact List.mem_map_of_mem (progress.rows_prefix.subset (List.mem_map_of_mem member))
      refine ⟨(row, answer) :: finished, ?_, progress.cons shape⟩
      rw [table]
      dsimp only
      rw [recorded_after_update changed apart]
    have stop (answer : Except String String) (shape : settleCalls calls = [settleCall receipt (row, answer)]) (e : String) :
        ∃ finished, w = { w with payments := w.payments.map (recorded finished) } ∧
          Progress receipt (row :: rows) calls (.error e) finished := by
      refine ⟨[], ?_, .inr ⟨e, row, rows, answer, rfl, rfl, shape⟩⟩
      rw [map_recorded_nil]
    cases evaluated with
    | @call _ _ answer _ _ _ _ _ settled rest =>
      cases settled
      cases answer with
      | ok digest =>
        cases rest with
        | @call _ _ marked _ _ _ _ _ given rest =>
          cases marked with
          | error e =>
            cases given
            cases rest
            exact stop (.ok digest) rfl e
          | ok =>
            cases given
            exact goOn (.ok digest) rest (fun _ => rfl) rfl
      | error reason =>
        cases rest with
        | @call _ _ marked _ _ _ _ _ given rest =>
          cases marked with
          | error e =>
            cases given
            cases rest
            exact stop (.error reason) rfl e
          | ok =>
            cases given
            exact goOn (.error reason) rest (fun _ => rfl) rfl

theorem pendingForRequest_ids (table : Payments) (requestId : RequestId) :
    ((table.pendingForRequest requestId).map (·.id)).Sublist (table.map (·.row.id)) := by
  rw [Payments.pendingForRequest, List.map_map]
  exact (List.filter_sublist).map _

theorem payment_of_id {table : Payments} (keyed : (table.map (·.row.id)).Nodup) {p q : Payment} (left : p ∈ table)
    (right : q ∈ table) (same : p.row.id = q.row.id) : p = q := List.inj_on_of_nodup_map keyed left right same

theorem pending_of_row {table : Payments} {requestId : RequestId} (keyed : (table.map (·.row.id)).Nodup) {p : Payment}
    (member : p ∈ table) (listed : p.row ∈ table.pendingForRequest requestId) :
    p.row.requestId = requestId ∧ p.status = .pending := by
  simp only [Payments.pendingForRequest, List.mem_map, List.mem_filter, decide_eq_true_eq] at listed
  obtain ⟨q, ⟨inside, request, pending⟩, same⟩ := listed
  have one := payment_of_id keyed inside member (congrArg PendingPayment.id same)
  exact one ▸ ⟨request, pending⟩

def settleRead (read : Except String RoutingReceipt) (rows : List PendingPayment) : Task (Except String Unit) :=
  match read with
  | .error e => .done (.error ("deserialize receipt: " ++ e))
  | .ok receipt => settleRows receipt rows

theorem handleSettlement_evaluates {job : SettlementJob}
    (evaluated : Routine.Evaluates (World.Answers X) (handleSettlement X job) w calls result w') :
    (w' = w ∧ settleCalls calls = [] ∧ (result = .ok () → w.payments.pendingForRequest job.requestId = [])) ∨
      ∃ receipt more, X.receiptFromStr job.receiptJson = .ok receipt ∧ settleCalls calls = settleCalls more ∧
        Routine.Evaluates (World.Answers X)
          (settleRows receipt (w.payments.pendingForRequest job.requestId)) w more result w' := by
  cases evaluated with
  | @call _ _ answer _ m _ more _ given rest =>
    cases answer with
    | error e =>
      cases given
      cases rest
      refine .inl ⟨rfl, rfl, ?_⟩
      intro succeeded
      cases succeeded
    | ok rows =>
      change (if rows = _ then some w else none) = some m at given
      split at given
      · rename_i selected
        cases given
        subst selected
        generalize Payments.pendingForRequest w.payments job.requestId = rows at rest ⊢
        cases rows with
        | nil =>
          cases rest
          exact .inl ⟨rfl, rfl, fun _ => rfl⟩
        | cons row rows =>
          change Routine.Evaluates _ (settleRead (X.receiptFromStr job.receiptJson) (row :: rows)) w more result w'
            at rest
          cases read : X.receiptFromStr job.receiptJson with
          | error e =>
            rw [read] at rest
            cases rest
            refine .inl ⟨rfl, rfl, ?_⟩
            intro succeeded
            cases succeeded
          | ok receipt =>
            rw [read] at rest
            exact .inr ⟨receipt, more, rfl, rfl, rest⟩
      · cases given

/-- An execution settles the rows that were pending when it began, in their order, and records each outcome before it
    goes on; it ends with an error at the first outcome it cannot record. -/
theorem settlement_execution_exact (X : Externals) (job : SettlementJob) (w w' : World C)
    (calls : List (Σ op, Answer op)) (result : Except String Unit) (keyed : (w.payments.map (·.row.id)).Nodup)
    (evaluated : Routine.Evaluates (World.Answers X) (handleSettlement X job) w calls result w') :
    ∃ (f : Payment → Payment) (finished : List (PendingPayment × Except String String)),
      w' = { w with payments := w.payments.map f } ∧
      (∀ x ∈ finished, ∀ p ∈ w.payments, p.row = x.1 → f p = p.finalise x.2) ∧
      (∀ p ∈ w.payments, p.row.requestId ≠ job.requestId ∨ p.status ≠ .pending → f p = p) ∧
      match result with
      | .ok () => finished.map (·.1) = w.payments.pendingForRequest job.requestId ∧ Settles X job finished calls
      | .error _ =>
        (finished = [] ∧ settleCalls calls = [] ∧ ∀ p ∈ w.payments, f p = p) ∨
          ∃ row rest answer, w.payments.pendingForRequest job.requestId = finished.map (·.1) ++ row :: rest ∧
            Settles X job (finished ++ [(row, answer)]) calls ∧ ∀ p ∈ w.payments, p.row ∈ row :: rest → f p = p := by
  rcases handleSettlement_evaluates evaluated with ⟨same, none, ended⟩ | ⟨receipt, more, read, made, loop⟩
  · refine ⟨id, [], ?_, fun x member => absurd member List.not_mem_nil, fun _ _ _ => rfl, ?_⟩
    · rw [same, List.map_id]
    · cases result with
      | ok => exact ⟨(ended rfl).symm, .inl ⟨rfl, none⟩⟩
      | error e => exact .inl ⟨rfl, none, fun _ _ => rfl⟩
  · have distinct := keyed.sublist (pendingForRequest_ids w.payments job.requestId)
    obtain ⟨finished, table, progress⟩ := settleRows_evaluates loop distinct
    have listed := progress.rows_prefix
    have keys : (finished.map (·.1.id)).Nodup := by
      have ids := distinct.sublist (listed.sublist.map PendingPayment.id)
      rwa [List.map_map] at ids
    refine ⟨recorded finished, finished, table, fun x member p _ own => recorded_of_mem keys member own, ?_, ?_⟩
    · intro p inside apart
      apply recorded_other
      intro x member same
      have due := listed.subset (List.mem_map_of_mem member)
      obtain ⟨_, q, known, own⟩ := Payments.mem_pendingForRequest due
      have one := payment_of_id keyed known inside ((congrArg PendingPayment.id own).trans same)
      rw [← own, one] at due
      obtain ⟨request, pending⟩ := pending_of_row keyed inside due
      exact apart.elim (fun other => other request) fun other => other pending
    · rcases progress with ⟨rfl, all, calls⟩ | ⟨e, row, rest, answer, rfl, shape, calls⟩
      · exact ⟨all, .inr ⟨receipt, read, made.trans calls⟩⟩
      · refine .inr ⟨row, rest, answer, shape, .inr ⟨receipt, read, made.trans calls⟩, ?_⟩
        intro p inside later
        apply recorded_other
        intro x member same
        rw [shape, List.map_append] at distinct
        refine List.disjoint_of_nodup_append distinct (a := p.row.id) ?_ (List.mem_map_of_mem later)
        rw [← same]
        exact List.mem_map_of_mem (List.mem_map_of_mem member)

theorem handleSettlement_of_loop {job : SettlementJob} {row : PendingPayment}
    (due : w.payments.pendingForRequest job.requestId = row :: rows) (read : X.receiptFromStr job.receiptJson = .ok receipt)
    (loop : Routine.Evaluates (World.Answers X) (settleRows receipt (row :: rows)) w calls result w') :
    Routine.Evaluates (World.Answers X) (handleSettlement X job) w
      (⟨.selectPending job.requestId, .ok (row :: rows)⟩ :: calls) result w' := by
  refine .call (if_pos due.symm) ?_
  change Routine.Evaluates _ (settleRead (X.receiptFromStr job.receiptJson) (row :: rows)) w calls result w'
  rw [read]
  exact loop

/-- Two rows, both settled; the first is recorded, the second cannot be. -/
theorem sample_execution_stops_at_second_row :
    let X := Externals.serde (fun _ => none) fun text => .ok ⟨text⟩
    let job : SettlementJob := ⟨sampleId 0, X.receiptToString sampleReceipt⟩
    let w := { idleWorld with payments := pendingRows (sampleId 0) [sampleId 1, sampleId 2] [sampleLine, otherLine] }
    let first := sampleLine.row (sampleId 1) (sampleId 0)
    let second := otherLine.row (sampleId 2) (sampleId 0)
    (w.payments.map (·.row.id)).Nodup ∧ ∃ calls w', Routine.Evaluates (World.Answers X) (handleSettlement X job) w calls
        (.error "connection reset") w' ∧
      settleCalls calls = [(sampleReceipt, "0xa", 1000, .ok "5xJ"), (sampleReceipt, "0xb", 500, .ok "7qK")] ∧
      ∃ f : Payment → Payment, w' = { w with payments := w.payments.map f } ∧
        (∀ p ∈ w.payments, p.row = first → f p = p.finalise (.ok "5xJ")) ∧
        ∀ p ∈ w.payments, p.row = second → f p = p := by
  intro X job w one two
  have faithful : X.RoundTrip := Externals.serde_roundTrip _ _
  have keyed : (w.payments.map (·.row.id)).Nodup := by decide
  have loop : Routine.Evaluates (World.Answers X) (settleRows sampleReceipt [one, two]) w
      [⟨.settle sampleReceipt "0xa" 1000, .ok "5xJ"⟩, ⟨.markSubmitted (sampleId 1) "5xJ", .ok ()⟩,
        ⟨.settle sampleReceipt "0xb" 500, .ok "7qK"⟩, ⟨.markSubmitted (sampleId 2) "7qK", .error "connection reset"⟩]
      (.error "connection reset") _ := .call rfl (.call rfl (.call rfl (.call rfl .done)))
  have read : X.receiptFromStr job.receiptJson = .ok sampleReceipt := faithful.text sampleReceipt
  have due : w.payments.pendingForRequest job.requestId = [one, two] := by decide
  have evaluated := handleSettlement_of_loop due read loop
  obtain ⟨f, finished, table, recorded, _, outcome⟩ := settlement_execution_exact X job w _ _ _ keyed evaluated
  refine ⟨keyed, _, _, evaluated, rfl, f, table, ?_⟩
  rcases outcome with ⟨_, none, _⟩ | ⟨row, rest, answer, listed, settled, later⟩
  · cases none
  rcases settled with ⟨none, _⟩ | ⟨receipt, _, made⟩
  · exact absurd none (List.append_ne_nil_of_right_ne_nil _ nofun)
  rw [due] at listed
  cases finished with
  | nil =>
    have lengths : 2 = 1 := congrArg List.length made
    cases lengths
  | cons x others =>
    obtain ⟨same, listed⟩ := List.cons.inj listed
    obtain ⟨answered, made⟩ := List.cons.inj made
    obtain rfl : others = [] := by
      cases others with
      | nil => rfl
      | cons y more =>
        have lengths := congrArg List.length made
        simp at lengths
    obtain ⟨rfl, _⟩ := List.cons.inj listed
    refine ⟨fun p inside own => ?_, fun p inside own => later p inside (own ▸ List.mem_cons_self)⟩
    have outcome : x.2 = .ok "5xJ" := congrArg (·.2.2.2) answered.symm
    rw [← outcome]
    exact recorded x (List.mem_singleton_self _) p inside (own.trans same)

end Coordinator
