import Pinaivu.Async.Evaluation
import Pinaivu.Coordinator.PaidRows

namespace Coordinator

open Protocol Crypto Async Onchain

structure Ledger where
  payments : Payments
  vault : Vault
  ids : List Uuid

/-- The answers of a database and a sidecar that never fail: only the sidecar's checks and the vault's
    own aborts are errors. -/
inductive Responds (C : Primitives) (config : Sidecar.Config) (enclave : PublicKey) :
    Ledger → (op : Call) → Answer op → Ledger → Prop where
  | minted {l : Ledger} {id : Uuid} {ids : List Uuid} (drawn : l.ids = id :: ids) :
      Responds C config enclave l .newUuid id { l with ids := ids }
  | inserted {l : Ledger} (row : PendingPayment) :
      Responds C config enclave l (.insertPayment row) (.ok ()) { l with payments := l.payments.insert row }
  | selected {l : Ledger} (requestId : RequestId) :
      Responds C config enclave l (.selectPending requestId) (.ok (l.payments.pendingForRequest requestId)) l
  | settled {l : Ledger} {receipt : RoutingReceipt} {payee : String} {amount : UInt64} {v : Vault} (digest : String)
      (paid : submit C config enclave l.vault receipt payee amount = some v) :
      Responds C config enclave l (.settle receipt payee amount) (.ok digest) { l with vault := v }
  | aborted {l : Ledger} {receipt : RoutingReceipt} {payee : String} {amount : UInt64} (e : String)
      (refused : submit C config enclave l.vault receipt payee amount = none) :
      Responds C config enclave l (.settle receipt payee amount) (.error e) l
  | submitted {l : Ledger} (id : Uuid) (digest : String) :
      Responds C config enclave l (.markSubmitted id digest) (.ok ())
        { l with payments := l.payments.markSubmitted id digest }
  | failed {l : Ledger} (id : Uuid) :
      Responds C config enclave l (.markFailed id) (.ok ()) { l with payments := l.payments.markFailed id }

def Ledger.Holds {C : Primitives} (id : TaskId) (s : World C × Vault) (l : Ledger) (task : Task Unit) : Prop :=
  s.1.tasks id = task ∧ s.1.payments = l.payments ∧ s.2 = l.vault

theorem Ledger.Holds.perform {C : Primitives} {X : Externals} {config : Sidecar.Config} {enclave : PublicKey}
    {id : TaskId} {w w' : World C} {v : Vault} {l t : Ledger} {op : Call} {next : Answer op → Task Unit}
    {answer : Answer op} (holds : Ledger.Holds id (w, v) l (.call op next))
    (answered : w.perform X op answer = some w') (off : (Label.call id op answer).paysOut = false)
    (table : w'.payments = t.payments) (vault : t.vault = l.vault) :
    ∃ label s', ChainStep X config enclave (w, v) label s' ∧ Ledger.Holds id s' t (next answer) := by
  refine ⟨_, _, .other (.call holds.1 answered) off, World.setTask_same _ _ _, table, ?_⟩
  rw [vault]
  exact holds.2.2

theorem Responds.step {C : Primitives} (X : Externals) {config : Sidecar.Config} {enclave : PublicKey} {id : TaskId}
    {s : World C × Vault} {l t : Ledger} {op : Call} {next : Answer op → Task Unit} {answer : Answer op}
    (holds : Ledger.Holds id s l (.call op next)) (given : Responds C config enclave l op answer t) :
    ∃ label s', ChainStep X config enclave s label s' ∧ Ledger.Holds id s' t (next answer) := by
  obtain ⟨w, v⟩ := s
  have table : w.payments = l.payments := holds.2.1
  cases given with
  | minted drawn => exact holds.perform rfl rfl table rfl
  | inserted row => exact holds.perform rfl rfl (congrArg (Payments.insert · row) table) rfl
  | selected requestId =>
    refine holds.perform (if_pos ?_) rfl table rfl
    rw [table]
  | settled digest paid =>
    obtain ⟨waiting, _, rfl⟩ := holds
    obtain ⟨call, built, settled⟩ := Option.bind_eq_some_iff.mp paid
    exact ⟨_, _, .settle (.call waiting rfl) (.paid built settled), World.setTask_same _ _ _, table, rfl⟩
  | aborted e refused =>
    obtain ⟨waiting, _, rfl⟩ := holds
    exact ⟨_, _, .settle (.call waiting rfl) (.refused e), World.setTask_same _ _ _, table, rfl⟩
  | submitted row digest => exact holds.perform rfl rfl (congrArg (Payments.markSubmitted · row digest) table) rfl
  | failed row => exact holds.perform rfl rfl (congrArg (Payments.markFailed · row) table) rfl

theorem Ledger.run {C : Primitives} (X : Externals) {config : Sidecar.Config} {enclave : PublicKey} {α : Type}
    {ends : α → Ledger → Prop} {t : Task α} {f : α → Task Unit} {id : TaskId} {s : World C × Vault} {l : Ledger}
    (ensures : t.Ensures (Responds C config enclave) ends l) (holds : Ledger.Holds id s l (t.bind f)) :
    ∃ trace s' a l', ChainRuns X config enclave s trace s' ∧ Ledger.Holds id s' l' (f a) ∧ ends a l' :=
  ensures.run holds fun _ _ _ _ _ _ here given => given.step X here

/-- The rows of a receipt inserted, and its job run. -/
def payOut (X : Externals) (receipt : RoutingReceipt) (lines : List PayoutLine) : Task (Except String Unit) := do
  match ← insertPending receipt.requestId lines with
  | .error e => return .error e
  | .ok () => handleSettlement X ⟨receipt.requestId, X.receiptToString receipt⟩

def PendingPayment.due (row : PendingPayment) : UInt64 := row.amountNanox.toUInt64

/-- Every row is submitted, and every address has what the receipt lists for it. -/
def PaidInFull (receipt : RoutingReceipt) (l : Ledger) : Prop :=
  (∀ p ∈ l.payments, p.row.requestId = receipt.requestId → 0 < p.row.due → p.status = .submitted) ∧
    ∀ address, l.vault.received receipt.requestId.bytes.toList address =
      ((receipt.payouts.filter fun p => Sidecar.pureAddress p.suiAddress = some address).map
        (·.amountNanox.toNat)).sum

variable {C : Primitives} {X : Externals} {config : Sidecar.Config} {enclave : PublicKey} {receipt : RoutingReceipt}

theorem insertPending_ensures (requestId : RequestId) (lines : List PayoutLine) {l : Ledger}
    (room : lines.length ≤ l.ids.length) (distinct : l.ids.Nodup)
    (fresh : ∀ id ∈ l.ids, ∀ p ∈ l.payments, p.row.id ≠ id) :
    (insertPending requestId lines).Ensures (Responds C config enclave) (fun result t => result = .ok () ∧
      t.vault = l.vault ∧
      t.payments = l.payments ++ (rowsFor requestId l.ids lines).map fun row => ⟨row, .pending, none⟩) l := by
  induction lines generalizing l with
  | nil => exact ⟨rfl, rfl, by simp [rowsFor]⟩
  | cons line lines ih =>
    obtain ⟨payments, vault, ids⟩ := l
    cases ids with
    | nil => simp at room
    | cons id ids =>
      refine ⟨⟨id, _, .minted rfl⟩, fun answer t drawn => ?_⟩
      cases drawn with
      | minted drawn =>
        cases drawn
        refine ⟨⟨_, _, .inserted _⟩, fun answer t given => ?_⟩
        cases given with
        | inserted row =>
          have new : ∀ p ∈ payments, p.row.id ≠ id := fresh id List.mem_cons_self
          have table : payments.insert (line.row id requestId) = _ := insert_fresh new
          dsimp only
          rw [table]
          have rest := ih (l := ⟨payments ++ [⟨line.row id requestId, .pending, none⟩], vault, ids⟩)
            (by simpa using room) distinct.of_cons ?_
          · refine rest.mono ?_
            intro result t found
            obtain ⟨done, same, rows⟩ := found
            refine ⟨done, same, ?_⟩
            rw [rows]
            simp [rowsFor]
          · intro other member p inside
            rcases List.mem_append.mp inside with old | added
            · exact fresh other (List.mem_cons_of_mem _ member) p old
            · rw [List.mem_singleton.mp added]
              intro equal
              subst equal
              exact (List.nodup_cons.mp distinct).1 member

def PendingPayment.payout (row : PendingPayment) : Payout := ⟨row.payeeSuiAddress, row.due⟩

theorem rowsFor_payouts (requestId : RequestId) {ids : List Uuid} {lines : List PayoutLine}
    (room : lines.length ≤ ids.length) :
    (rowsFor requestId ids lines).map PendingPayment.payout = lines.map fun l => ⟨l.suiAddress, l.amountNanox⟩ := by
  induction lines generalizing ids with
  | nil => simp [rowsFor]
  | cons line lines ih =>
    cases ids with
    | nil => simp at room
    | cons id ids =>
      rw [rowsFor, List.zipWith_cons_cons, List.map_cons, List.map_cons, ← rowsFor, ih (by simpa using room),
        PendingPayment.payout, PendingPayment.due, PayoutLine.row_amount]
      rfl

theorem pendingForRequest_rows {table : Payments} {requestId : RequestId} {rows : List PendingPayment}
    (fresh : ∀ p ∈ table, p.row.requestId ≠ requestId) (own : ∀ row ∈ rows, row.requestId = requestId) :
    Payments.pendingForRequest (table ++ rows.map fun row => ⟨row, .pending, none⟩) requestId = rows := by
  have old : table.filter (fun p => p.row.requestId = requestId ∧ p.status = .pending) = [] := by
    rw [List.filter_eq_nil_iff]
    intro p member
    simp [fresh p member]
  have new : (rows.map fun row => (⟨row, .pending, none⟩ : Payment)).filter
      (fun p => p.row.requestId = requestId ∧ p.status = .pending) = rows.map fun row => ⟨row, .pending, none⟩ := by
    rw [List.filter_eq_self]
    intro p member
    obtain ⟨row, inside, rfl⟩ := List.mem_map.mp member
    simp [own row inside]
  rw [Payments.pendingForRequest, List.filter_append, old, new, List.nil_append, List.map_map]
  exact List.map_id _

section Loop

variable (pay : Vault → PendingPayment → Option Vault)

def marks : Vault → List PendingPayment → List (PendingPayment × PaymentStatus)
  | _, [] => []
  | v, row :: rows =>
    match pay v row with
    | some paid => (row, .submitted) :: marks paid rows
    | none => (row, .failed) :: marks v rows

def vaultAfter : Vault → List PendingPayment → Vault
  | v, [] => v
  | v, row :: rows => vaultAfter ((pay v row).getD v) rows

def Payments.standing (table : Payments) : List (PendingPayment × PaymentStatus) :=
  table.map fun p => (p.row, p.status)

def mark (entry marked : PendingPayment × PaymentStatus) : PendingPayment × PaymentStatus :=
  if entry.1.id = marked.1.id then (entry.1, marked.2) else entry

theorem standing_update (table : Payments) (row : PendingPayment) (status : PaymentStatus) (change : Payment → Payment)
    (changed : ∀ p, ((change p).row, (change p).status) = (p.row, status)) :
    (table.update row.id change).standing = table.standing.map (mark · (row, status)) := by
  simp only [Payments.standing, Payments.update, List.map_map, List.map_inj_left, Function.comp_apply]
  intro p _
  rw [mark]
  split
  · exact changed p
  · rfl

variable {pay}

theorem settleRows_ensures (rows : List PendingPayment) {l : Ledger}
    (pays : ∀ v row, row ∈ rows → pay v row = submit C config enclave v receipt row.payeeSuiAddress row.due) :
    (settleRows receipt rows).Ensures (Responds C config enclave) (fun result t => result = .ok () ∧
      t.vault = vaultAfter pay l.vault rows ∧
      t.payments.standing = l.payments.standing.map fun entry => (marks pay l.vault rows).foldl mark entry) l := by
  induction rows generalizing l with
  | nil => exact ⟨rfl, rfl, by simp [marks]⟩
  | cons row rows ih =>
    have tried := pays l.vault row List.mem_cons_self
    have later {t : Ledger} := ih (l := t) fun v row member => pays v row (List.mem_cons_of_mem _ member)
    constructor
    · cases found : submit C config enclave l.vault receipt row.payeeSuiAddress row.due with
      | some v => exact ⟨_, _, .settled "" found⟩
      | none => exact ⟨_, _, .aborted "" found⟩
    · intro answer t given
      cases given with
      | settled digest paid =>
        change submit C config enclave l.vault receipt row.payeeSuiAddress row.due = _ at paid
        rw [paid] at tried
        refine ⟨⟨_, _, .submitted _ _⟩, fun answer t given => ?_⟩
        cases given with
        | submitted id digest =>
          refine later.mono ?_
          intro result t fact
          obtain ⟨done, vault, table⟩ := fact
          refine ⟨done, ?_, ?_⟩
          · rw [vault, vaultAfter, tried, Option.getD_some]
          · rw [table, marks, tried]
            dsimp only
            rw [Payments.markSubmitted, standing_update _ row .submitted _ fun _ => rfl, List.map_map]
            rfl
      | aborted e refused =>
        change submit C config enclave l.vault receipt row.payeeSuiAddress row.due = _ at refused
        rw [refused] at tried
        refine ⟨⟨_, _, .failed _⟩, fun answer t given => ?_⟩
        cases given with
        | failed id =>
          refine later.mono ?_
          intro result t fact
          obtain ⟨done, vault, table⟩ := fact
          refine ⟨done, ?_, ?_⟩
          · rw [vault, vaultAfter, tried, Option.getD_none]
          · rw [table, marks, tried]
            dsimp only
            rw [Payments.markFailed, standing_update _ row .failed _ fun _ => rfl, List.map_map]
            rfl

theorem marks_rows (pay : Vault → PendingPayment → Option Vault) (v : Vault) (rows : List PendingPayment) :
    (marks pay v rows).map (·.1) = rows := by
  induction rows generalizing v with
  | nil => rfl
  | cons row rows ih =>
    rw [marks]
    cases pay v row with
    | some paid => rw [List.map_cons, ih]
    | none => rw [List.map_cons, ih]

theorem foldl_mark_other {entry : PendingPayment × PaymentStatus} {marked : List (PendingPayment × PaymentStatus)}
    (apart : ∀ x ∈ marked, entry.1.id ≠ x.1.id) : marked.foldl mark entry = entry := by
  induction marked with
  | nil => rfl
  | cons x rest ih =>
    rw [List.foldl_cons, mark, if_neg (apart x List.mem_cons_self)]
    exact ih fun y member => apart y (List.mem_cons_of_mem _ member)

theorem foldl_mark_of_mem {x : PendingPayment × PaymentStatus} {marked : List (PendingPayment × PaymentStatus)}
    (distinct : (marked.map (·.1.id)).Nodup) (member : x ∈ marked) (status : PaymentStatus) :
    marked.foldl mark (x.1, status) = x := by
  induction marked generalizing status with
  | nil => cases member
  | cons y rest ih =>
    rw [List.map_cons, List.nodup_cons] at distinct
    rw [List.foldl_cons]
    rcases List.mem_cons.mp member with rfl | inside
    · rw [mark, if_pos rfl]
      apply foldl_mark_other
      intro z later same
      exact distinct.1 (List.mem_map.mpr ⟨z, later, same.symm⟩)
    · have apart : x.1.id ≠ y.1.id := by
        intro same
        exact distinct.1 (List.mem_map.mpr ⟨x, inside, same⟩)
      rw [mark, if_neg apart]
      exact ih distinct.2 inside status

theorem foldl_mark_row (entry : PendingPayment × PaymentStatus) (marked : List (PendingPayment × PaymentStatus)) :
    (marked.foldl mark entry).1 = entry.1 := by
  induction marked generalizing entry with
  | nil => rfl
  | cons x rest ih =>
    rw [List.foldl_cons, ih, mark]
    split <;> rfl

theorem marked_of_mem {table marked : List (PendingPayment × PaymentStatus)} (distinct : (marked.map (·.1.id)).Nodup)
    {entry : PendingPayment × PaymentStatus} (member : entry ∈ table.map fun e => marked.foldl mark e)
    (tracked : ∀ e ∈ table, e.1 = entry.1 → e.1 ∈ marked.map (·.1)) : entry ∈ marked := by
  obtain ⟨e, inside, rfl⟩ := List.mem_map.mp member
  obtain ⟨x, known, same⟩ := List.mem_map.mp (tracked e inside (foldl_mark_row _ _).symm)
  have final := foldl_mark_of_mem distinct known e.2
  rw [same] at final
  change marked.foldl mark e = x at final
  rw [final]
  exact known

theorem handleSettlement_ensures (faithful : X.RoundTrip) {l : Ledger} {ends : Except String Unit → Ledger → Prop}
    (loop : (settleRows receipt (l.payments.pendingForRequest receipt.requestId)).Ensures
      (Responds C config enclave) ends l) :
    (handleSettlement X ⟨receipt.requestId, X.receiptToString receipt⟩).Ensures (Responds C config enclave) ends l := by
  refine ⟨⟨_, _, .selected _⟩, fun answer t given => ?_⟩
  cases given with
  | selected requestId =>
    generalize Payments.pendingForRequest l.payments receipt.requestId = rows at loop
    cases rows with
    | nil => exact loop
    | cons row rows =>
      simp only [faithful.text]
      exact loop

end Loop

section Batch

variable {pay : Vault → PendingPayment → Option Vault} {requestId : List UInt8}
  {address : PendingPayment → Vector UInt8 32} {timely : Prop} [Decidable timely]

def AllPaid (pay : Vault → PendingPayment → Option Vault) (v : Vault) (rows : List PendingPayment) : Prop :=
  ∀ x ∈ marks pay v rows, 0 < x.1.due → x.2 = .submitted

/-- The vault pays a row when it has an amount, the signature is accepted and its address is new. -/
def PaysOnce (pay : Vault → PendingPayment → Option Vault) (requestId : List UInt8)
    (address : PendingPayment → Vector UInt8 32) (timely : Prop) [Decidable timely] (rows : List PendingPayment) : Prop :=
  ∀ v, ∀ row ∈ rows, row.due.toNat ≤ v.treasury → pay v row =
    if 0 < row.due ∧ timely ∧ v.hasSettled requestId (address row) = false then
      some (v.pay requestId (address row) row.due)
    else none

def total (rows : List PendingPayment) : Nat := (rows.map (·.due.toNat)).sum

theorem AllPaid.cons_some {v paid : Vault} {row : PendingPayment} {rows : List PendingPayment}
    (tried : pay v row = some paid) : AllPaid pay v (row :: rows) ↔ AllPaid pay paid rows := by
  simp only [AllPaid, marks, tried, List.forall_mem_cons, implies_true, true_and]

theorem AllPaid.cons_none {v : Vault} {row : PendingPayment} {rows : List PendingPayment}
    (tried : pay v row = none) : AllPaid pay v (row :: rows) ↔ ¬ 0 < row.due ∧ AllPaid pay v rows := by
  simp only [AllPaid, marks, tried, List.forall_mem_cons]
  refine and_congr_left fun _ => ⟨fun submitted positive => ?_, fun zero positive => absurd positive zero⟩
  cases submitted positive

/-- All rows are paid exactly when the signature is accepted and no two of them share an address. -/
theorem allPaid_iff (rows : List PendingPayment) {v : Vault} (once : PaysOnce pay requestId address timely rows)
    (funds : total rows ≤ v.treasury) :
    AllPaid pay v rows ↔
      (∀ row ∈ rows, 0 < row.due → timely ∧ v.hasSettled requestId (address row) = false) ∧
        rows.Pairwise fun a b => 0 < a.due → 0 < b.due → address a ≠ address b := by
  induction rows generalizing v with
  | nil => simp [AllPaid, marks]
  | cons row rows ih =>
    rw [total, List.map_cons, List.sum_cons] at funds
    have later {v : Vault} := ih (v := v) fun v row member => once v row (List.mem_cons_of_mem _ member)
    have tried := once v row List.mem_cons_self (by omega)
    rw [List.forall_mem_cons, List.pairwise_cons]
    by_cases positive : 0 < row.due
    · by_cases accepted : timely ∧ v.hasSettled requestId (address row) = false
      · rw [if_pos ⟨positive, accepted⟩] at tried
        have rest : total rows ≤ (v.pay requestId (address row) row.due).treasury := by
          change _ ≤ v.treasury - row.due.toNat
          rw [total]
          omega
        rw [AllPaid.cons_some tried, later rest]
        simp only [Vault.hasSettled_pay, positive, accepted, true_and, forall_true_left, implies_true]
        constructor
        · intro given
          obtain ⟨all, pairwise⟩ := given
          exact ⟨fun b member due => (all b member due).1,
            fun b member due => (all b member due).2, pairwise⟩
        · intro given
          obtain ⟨all, apart, pairwise⟩ := given
          exact ⟨fun b member due => ⟨all b member due, apart b member due⟩, pairwise⟩
      · rw [if_neg fun holds => accepted holds.2] at tried
        rw [AllPaid.cons_none tried]
        constructor
        · intro given
          obtain ⟨zero, _⟩ := given
          exact absurd positive zero
        · intro given
          obtain ⟨⟨holds, _⟩, _⟩ := given
          exact absurd (holds positive) accepted
    · rw [if_neg fun holds => positive holds.1] at tried
      rw [AllPaid.cons_none tried, later (by rw [total]; omega)]
      constructor
      · intro given
        obtain ⟨_, all, pairwise⟩ := given
        exact ⟨⟨fun due => absurd due positive, all⟩, fun b _ due => absurd due positive, pairwise⟩
      · intro given
        obtain ⟨⟨_, all⟩, _, pairwise⟩ := given
        exact ⟨positive, all, pairwise⟩

theorem received_of_allPaid (rows : List PendingPayment) {v : Vault}
    (once : PaysOnce pay requestId address timely rows) (funds : total rows ≤ v.treasury) (paid : AllPaid pay v rows)
    (payee : Vector UInt8 32) :
    (vaultAfter pay v rows).received requestId payee =
      v.received requestId payee + ((rows.filter fun row => address row = payee).map (·.due.toNat)).sum := by
  induction rows generalizing v with
  | nil => rfl
  | cons row rows ih =>
    rw [total, List.map_cons, List.sum_cons] at funds
    have later {v : Vault} := ih (v := v) fun v row member => once v row (List.mem_cons_of_mem _ member)
    have tried := once v row List.mem_cons_self (by omega)
    rw [vaultAfter]
    split at tried
    · rw [AllPaid.cons_some tried] at paid
      have rest : total rows ≤ (v.pay requestId (address row) row.due).treasury := by
        change _ ≤ v.treasury - row.due.toNat
        rw [total]
        omega
      rw [tried, Option.getD_some, later rest paid, Vault.received_pay]
      by_cases same : address row = payee
      · simp [same, Nat.add_assoc]
      · simp [same]
    · rw [AllPaid.cons_none tried] at paid
      have zero : row.due.toNat = 0 := Nat.eq_zero_of_not_pos paid.1
      rw [tried, Option.getD_none, later (by rw [total]; omega) paid.2]
      by_cases same : address row = payee
      · simp [same, zero]
      · simp [same]

end Batch

variable {key : C.SigningKey} {r : RoutingReceipt} {rows : List PendingPayment} {l : Ledger}

def payeeAddress (row : PendingPayment) : Vector UInt8 32 := (Sidecar.pureAddress row.payeeSuiAddress).getD zeroAddress

theorem payeeAddress_eq (payable : Payable receipt) (listed : rows.map PendingPayment.payout = receipt.payouts)
    {row : PendingPayment} (member : row ∈ rows) :
    Sidecar.pureAddress row.payeeSuiAddress = some (payeeAddress row) := by
  have inside : row.payout ∈ receipt.payouts := by
    rw [← listed]
    exact List.mem_map_of_mem member
  obtain ⟨address, found⟩ := (payable.addresses _ inside).pureAddress
  change Sidecar.pureAddress row.payeeSuiAddress = _ at found
  rw [payeeAddress, found]
  rfl

theorem paysOnce (payable : Payable receipt) (correct : C.Correct) (signed : r.sign C key = some receipt)
    (binds : ∀ message, receipt.intentMessageBytes = some message → C.Binds key message)
    (configured : config.packageId ≠ "" ∧ config.vaultId ≠ "" ∧ config.activeEnclaveObjectId ≠ "")
    (listed : rows.map PendingPayment.payout = receipt.payouts) :
    PaysOnce (fun v row => submit C config (C.verifyingKey key) v receipt row.payeeSuiAddress row.due)
      receipt.requestId.bytes.toList payeeAddress (Wire.ExactDouble receipt.timestampMs.toNat) rows := by
  intro v row member funds
  have inside : row.payout ∈ receipt.payouts := by
    rw [← listed]
    exact List.mem_map_of_mem member
  exact payable.submit_eq correct signed binds configured inside (payeeAddress_eq payable listed member) v funds

theorem paidInFull_iff_allPaid {pay : Vault → PendingPayment → Option Vault} {t : Ledger} {old : Payments}
    (payable : Payable receipt) (listed : rows.map PendingPayment.payout = receipt.payouts)
    (once : PaysOnce pay receipt.requestId.bytes.toList payeeAddress (Wire.ExactDouble receipt.timestampMs.toNat) rows)
    (funds : total rows ≤ l.vault.treasury) (unsettled : ∀ s ∈ l.vault.settled, s.requestId ≠ receipt.requestId.bytes.toList)
    (distinct : (rows.map (·.id)).Nodup) (own : ∀ row ∈ rows, row.requestId = receipt.requestId)
    (fresh : ∀ p ∈ old, p.row.requestId ≠ receipt.requestId)
    (table : l.payments = old ++ rows.map fun row => ⟨row, .pending, none⟩)
    (vault : t.vault = vaultAfter pay l.vault rows)
    (standing : t.payments.standing =
      l.payments.standing.map fun entry => (marks pay l.vault rows).foldl mark entry) :
    PaidInFull receipt t ↔ AllPaid pay l.vault rows := by
  have marked : ((marks pay l.vault rows).map (·.1.id)).Nodup := by
    have ids : (marks pay l.vault rows).map (·.1.id) = ((marks pay l.vault rows).map (·.1)).map (·.id) := by
      rw [List.map_map]
      rfl
    rwa [ids, marks_rows]
  have recorded {x : PendingPayment × PaymentStatus} (member : x ∈ marks pay l.vault rows) :
      ∃ p ∈ t.payments, (p.row, p.status) = x := by
    have inside : x.1 ∈ rows := by
      rw [← marks_rows pay l.vault rows]
      exact List.mem_map_of_mem member
    have entry : (x.1, PaymentStatus.pending) ∈ l.payments.standing := by
      rw [table, Payments.standing, List.map_append, List.map_map]
      exact List.mem_append_right _ (List.mem_map.mpr ⟨x.1, inside, rfl⟩)
    have image : x ∈ t.payments.standing := by
      rw [standing]
      exact List.mem_map.mpr ⟨_, entry, foldl_mark_of_mem marked member _⟩
    exact List.mem_map.mp image
  have marks_of {p : Payment} (member : p ∈ t.payments) (request : p.row.requestId = receipt.requestId) :
      (p.row, p.status) ∈ marks pay l.vault rows := by
    have image : (p.row, p.status) ∈ t.payments.standing := List.mem_map.mpr ⟨p, member, rfl⟩
    rw [standing] at image
    refine marked_of_mem marked image fun e entry same => ?_
    rw [marks_rows]
    rw [table, Payments.standing, List.map_append, List.map_map] at entry
    rcases List.mem_append.mp entry with early | late
    · obtain ⟨q, inside, rfl⟩ := List.mem_map.mp early
      have other := fresh q inside
      change q.row = p.row at same
      rw [same] at other
      exact absurd request other
    · obtain ⟨row, inside, rfl⟩ := List.mem_map.mp late
      exact inside
  constructor
  · intro given x member positive
    obtain ⟨submitted, _⟩ := given
    obtain ⟨p, inside, rfl⟩ := recorded member
    have request : p.row ∈ rows := by
      rw [← marks_rows pay l.vault rows]
      exact List.mem_map_of_mem member
    exact submitted p inside (own _ request) positive
  · intro paid
    refine ⟨fun p member request positive => paid _ (marks_of member request) positive, ?_⟩
    intro address
    rw [vault, received_of_allPaid rows once funds paid, Vault.received_of_fresh unsettled, Nat.zero_add, ← listed,
      List.filter_map, List.map_map]
    have same : rows.filter (fun row => payeeAddress row = address) =
        rows.filter ((fun p : Payout => decide (Sidecar.pureAddress p.suiAddress = some address)) ∘
          PendingPayment.payout) := by
      apply List.filter_congr
      intro row member
      have found := payeeAddress_eq payable listed member
      simp [PendingPayment.payout, found]
    rw [same]
    rfl

theorem apart_iff (payable : Payable receipt) (listed : rows.map PendingPayment.payout = receipt.payouts) :
    rows.Pairwise (fun a b => 0 < a.due → 0 < b.due → payeeAddress a ≠ payeeAddress b) ↔
      receipt.payouts.Pairwise fun a b => 0 < a.amountNanox → 0 < b.amountNanox →
        Sidecar.pureAddress a.suiAddress ≠ Sidecar.pureAddress b.suiAddress := by
  rw [← listed, List.pairwise_map]
  apply List.Pairwise.iff_of_mem
  intro a b left right
  simp only [PendingPayment.payout, payeeAddress_eq payable listed left, payeeAddress_eq payable listed right,
    ne_eq, Option.some.injEq]

theorem payable_of_lines {lines : List PayoutLine}
    (payouts : receipt.payouts = lines.map fun l => ⟨l.suiAddress, l.amountNanox⟩)
    (wellFormed : ∀ line ∈ lines, FullAddress line.suiAddress ∧ line.amountNanox.toNat < 2 ^ 53) : Payable receipt := by
  constructor
  · rw [payouts, List.forall_mem_map]
    exact fun line member => (wellFormed line member).1
  · rw [payouts, List.forall_mem_map]
    exact fun line member => (wellFormed line member).2

theorem payOut_ensures (faithful : X.RoundTrip) (payable : Payable receipt) (correct : C.Correct)
    (signed : r.sign C key = some receipt)
    (binds : ∀ message, receipt.intentMessageBytes = some message → C.Binds key message)
    (configured : config.packageId ≠ "" ∧ config.vaultId ≠ "" ∧ config.activeEnclaveObjectId ≠ "")
    {lines : List PayoutLine} (payouts : receipt.payouts = lines.map fun l => ⟨l.suiAddress, l.amountNanox⟩)
    (unrecorded : ∀ p ∈ l.payments, p.row.requestId ≠ receipt.requestId)
    (unsettled : ∀ s ∈ l.vault.settled, s.requestId ≠ receipt.requestId.bytes.toList)
    (distinct : l.ids.Nodup) (room : lines.length ≤ l.ids.length)
    (fresh : ∀ id ∈ l.ids, ∀ p ∈ l.payments, p.row.id ≠ id)
    (funds : (receipt.payouts.map (·.amountNanox.toNat)).sum ≤ l.vault.treasury) :
    (payOut X receipt lines).Ensures (Responds C config (C.verifyingKey key)) (fun result t => result = .ok () ∧
      (PaidInFull receipt t ↔
        (∀ p ∈ receipt.payouts, 0 < p.amountNanox → Wire.ExactDouble receipt.timestampMs.toNat) ∧
        receipt.payouts.Pairwise fun a b => 0 < a.amountNanox → 0 < b.amountNanox →
          Sidecar.pureAddress a.suiAddress ≠ Sidecar.pureAddress b.suiAddress)) l := by
  let rows := rowsFor receipt.requestId l.ids lines
  have listed : rows.map PendingPayment.payout = receipt.payouts := by
    rw [rowsFor_payouts _ room, payouts]
  have own : ∀ row ∈ rows, row.requestId = receipt.requestId := rowsFor_requestId
  have ids : (rows.map (·.id)).Nodup := distinct.sublist (rowsFor_ids _ _ _)
  have once := paysOnce payable correct signed binds configured listed
  refine (insertPending_ensures receipt.requestId lines room distinct fresh).seq ?_
  intro result t given
  obtain ⟨rfl, vault, table⟩ := given
  apply handleSettlement_ensures faithful
  rw [table, pendingForRequest_rows unrecorded own]
  refine (settleRows_ensures rows fun _ _ _ => rfl).mono ?_
  intro result final given
  obtain ⟨done, settled, standing⟩ := given
  refine ⟨done, ?_⟩
  have affordable : total rows ≤ t.vault.treasury := by
    have same : rows.map (·.due.toNat) = receipt.payouts.map (·.amountNanox.toNat) := by
      rw [← listed, List.map_map]
      rfl
    rw [total, same, vault]
    exact funds
  rw [← vault] at unsettled
  rw [paidInFull_iff_allPaid payable listed once affordable unsettled ids own unrecorded table settled standing,
    allPaid_iff rows once affordable, apart_iff payable listed]
  refine and_congr_left fun _ => ?_
  rw [← listed, List.forall_mem_map]
  refine forall₂_congr fun row _ => ?_
  exact ⟨fun timely positive => (timely positive).1,
    fun timely positive => ⟨timely positive, Vault.hasSettled_of_fresh unsettled _⟩⟩

def SeparatePayees (ack : CompletionAck) (addresses : PayoutAddresses) : Prop :=
  ack.proofs.Pairwise fun p q => 0 < p.pricePaidNanox.value → 0 < q.pricePaidNanox.value →
    ∀ a b, addresses p.nodePeerId.value = some a → addresses q.nodePeerId.value = some b →
      Sidecar.pureAddress a ≠ Sidecar.pureAddress b

theorem mem_computePayouts {ack : CompletionAck} {addresses : PayoutAddresses} {line : PayoutLine} :
    line ∈ computePayouts ack addresses ↔
      ∃ proof ∈ ack.proofs, ∃ address, addresses proof.nodePeerId.value = some address ∧
        line = ⟨proof.nodePeerId.value, address, proof.pricePaidNanox.value⟩ := by
  simp only [computePayouts, List.mem_filterMap, Option.bind_eq_bind, Option.bind_eq_some_iff, Option.pure_def,
    Option.some.injEq, eq_comm (a := line)]

theorem separatePayees_iff (ack : CompletionAck) (addresses : PayoutAddresses) :
    (computePayouts ack addresses).Pairwise (fun a b => 0 < a.amountNanox → 0 < b.amountNanox →
      Sidecar.pureAddress a.suiAddress ≠ Sidecar.pureAddress b.suiAddress) ↔ SeparatePayees ack addresses := by
  rw [computePayouts, List.pairwise_filterMap, SeparatePayees]
  simp only [Option.bind_eq_bind, Option.bind_eq_some_iff, Option.pure_def, Option.some.injEq]
  apply List.Pairwise.iff
  intro p q
  constructor
  · intro apart positive also a b left right
    exact apart ⟨p.nodePeerId.value, a, p.pricePaidNanox.value⟩ ⟨a, left, rfl⟩
      ⟨q.nodePeerId.value, b, q.pricePaidNanox.value⟩ ⟨b, right, rfl⟩ positive also
  · intro apart _ given _ found positive also
    obtain ⟨a, left, rfl⟩ := given
    obtain ⟨b, right, rfl⟩ := found
    exact apart positive also a b left right

/-- With a database and a sidecar that never fail, full-length addresses, amounts a double holds and a
    treasury that suffices, an ack's payees are paid in full exactly when no two of its proofs with a price share
    an address and, if there are any, a double holds the receipt's timestamp. -/
theorem payees_paid_in_full_iff (X : Externals) (faithful : X.RoundTrip) (correct : C.Correct)
    (config : Sidecar.Config)
    (configured : config.packageId ≠ "" ∧ config.vaultId ≠ "" ∧ config.activeEnclaveObjectId ≠ "")
    (loop : EventLoop C) (sender : PeerId) (ack : CompletionAck) (nowMs : UInt64) (receipt : RoutingReceipt)
    (signed : loop.receiptFor sender ack nowMs = some receipt)
    (binds : ∀ message, receipt.intentMessageBytes = some message → C.Binds loop.enclaveKey message)
    (wellFormed : ∀ line ∈ computePayouts ack (loop.addressesFor ack.requestId),
      FullAddress line.suiAddress ∧ line.amountNanox.toNat < 2 ^ 53)
    (l : Ledger) (unrecorded : ∀ p ∈ l.payments, p.row.requestId ≠ ack.requestId)
    (unsettled : ∀ s ∈ l.vault.settled, s.requestId ≠ ack.requestId.bytes.toList)
    (distinct : l.ids.Nodup) (room : ack.proofs.length ≤ l.ids.length)
    (fresh : ∀ id ∈ l.ids, ∀ p ∈ l.payments, p.row.id ≠ id)
    (funds : (receipt.payouts.map (·.amountNanox.toNat)).sum ≤ l.vault.treasury) :
    (payOut X receipt (computePayouts ack (loop.addressesFor ack.requestId))).Ensures
      (Responds C config (C.verifyingKey loop.enclaveKey)) (fun result t => result = .ok () ∧
        (PaidInFull receipt t ↔ SeparatePayees ack (loop.addressesFor ack.requestId) ∧
          ((∃ proof ∈ ack.proofs, 0 < proof.pricePaidNanox.value ∧
            (loop.addressesFor ack.requestId proof.nodePeerId.value).isSome) →
              Wire.ExactDouble nowMs.toNat))) l := by
  obtain ⟨request, _, payouts⟩ := receiptFor_eq_some signed
  have timestamp : receipt.timestampMs = nowMs := by
    obtain ⟨_, _, shape⟩ := RoutingReceipt.sign_eq_some signed
    rw [shape]
    rfl
  have payable := payable_of_lines payouts wellFormed
  rw [← request] at unrecorded unsettled
  have enough : (computePayouts ack (loop.addressesFor ack.requestId)).length ≤ l.ids.length :=
    (List.length_filterMap_le _ _).trans room
  refine (payOut_ensures faithful payable correct signed binds configured payouts unrecorded unsettled distinct enough
    fresh funds).mono ?_
  intro result t given
  obtain ⟨done, paid⟩ := given
  refine ⟨done, ?_⟩
  rw [paid, and_comm, timestamp]
  refine and_congr ?_ ?_
  · rw [payouts, List.pairwise_map]
    exact separatePayees_iff ack _
  · rw [payouts, List.forall_mem_map]
    constructor
    · intro timely given
      obtain ⟨proof, member, positive, known⟩ := given
      obtain ⟨address, found⟩ := Option.isSome_iff_exists.mp known
      exact timely _ (mem_computePayouts.mpr ⟨proof, member, address, found, rfl⟩) positive
    · intro timely line inside positive
      obtain ⟨proof, member, address, known, rfl⟩ := mem_computePayouts.mp inside
      exact timely ⟨proof, member, positive, by rw [known]; rfl⟩

def helpedAck (C : Primitives) (key : C.SigningKey) : CompletionAck :=
  CompletionAck.sign C key ⟨sampleRequest.requestId,
    [sampleProof.sign C key, { sampleProof with nodePeerId := ⟨"12D3KooWPeerNode2"⟩ }.sign C key],
    Vector.replicate 32 9, Vector.replicate 32 0, []⟩

theorem helpedAck_verified (correct : C.Correct) (key : C.SigningKey) : Verified C (helpedAck C key) := by
  apply verified_of_signed correct
  simp only [List.forall_mem_cons]
  exact ⟨ProofOfInference.verify_sign correct key _, ProofOfInference.verify_sign correct key _, by simp⟩

def shortPayee (high low : Char) : String := String.ofList ('0' :: 'x' :: (List.replicate 62 '0' ++ [high, low]))

theorem shortPayee_full {high low : Char} (left : (Wire.hexValue high).isSome) (right : (Wire.hexValue low).isSome) :
    FullAddress (shortPayee high low) := by
  refine ⟨_, String.toList_ofList, by simp, ?_⟩
  intro c member
  simp only [List.mem_append, List.mem_replicate, List.mem_cons, List.not_mem_nil, or_false] at member
  rcases member with ⟨_, rfl⟩ | rfl | rfl
  · decide
  · exact left
  · exact right

def firstPayee : String := shortPayee 'a' '1'
def secondPayee : String := shortPayee 'b' '2'

def payingLoop (key : C.SigningKey) (helper : String) : EventLoop C :=
  { EventLoop.new key true true with
    inFlight := fun _ => some (flightOf sampleRequest fun peer =>
      if peer = "12D3KooWPeerNode1" then some firstPayee
      else if peer = "12D3KooWPeerNode2" then some helper else none) }

def helpedReceipt (helper : String) : RoutingReceipt :=
  { sampleReceipt with
    requestId := sampleRequest.requestId
    aggregatedOutputHash := Vector.replicate 32 9
    payouts := [⟨firstPayee, 1000⟩, ⟨helper, 1000⟩] }

theorem helpedAck_accepted (helper : String) :
    let C := Primitives.marking ((helpedReceipt helper).intentMessageBytes.getD [])
    let loop : EventLoop C := payingLoop (Vector.replicate 32 0) helper
    let ack := helpedAck C (Vector.replicate 32 0)
    ∃ receipt, loop.receiptFor ⟨"12D3KooWPeerNode1"⟩ ack 1700000010000 = some receipt ∧
      receipt.requestId = sampleRequest.requestId ∧ receipt.timestampMs = 1700000010000 ∧
      receipt.payouts = [⟨firstPayee, 1000⟩, ⟨helper, 1000⟩] ∧
      ∀ message, receipt.intentMessageBytes = some message → C.Binds loop.enclaveKey message := by
  intro C loop ack
  obtain ⟨receipt, signed⟩ := receiptFor_isSome loop ⟨"12D3KooWPeerNode1"⟩ ack 1700000010000
    (show 2 < 2 ^ 31 by decide)
  obtain ⟨_, _, shape⟩ := RoutingReceipt.sign_eq_some signed
  refine ⟨receipt, signed, by rw [shape]; rfl, by rw [shape]; rfl, by rw [shape]; rfl, ?_⟩
  intro message encoded
  have same : receipt.intentMessage = (helpedReceipt helper).intentMessage := by
    rw [shape]
    rfl
  have marked : (helpedReceipt helper).intentMessageBytes.getD [] = message := by
    rw [RoutingReceipt.intentMessageBytes, ← same]
    rw [RoutingReceipt.intentMessageBytes] at encoded
    rw [encoded]
    rfl
  rw [← marked]
  exact Primitives.marking_binds _ _

theorem helpedAck_lines {helper : String} (full : FullAddress helper) (key : C.SigningKey) :
    ∀ line ∈ computePayouts (helpedAck C key) ((payingLoop key helper).addressesFor (helpedAck C key).requestId),
      FullAddress line.suiAddress ∧ line.amountNanox.toNat < 2 ^ 53 := by
  have first : FullAddress firstPayee := shortPayee_full (by decide) (by decide)
  have amount : sampleProof.pricePaidNanox.value.toNat < 2 ^ 53 := by decide
  change ∀ line ∈ [_, _], _
  simp only [List.forall_mem_cons]
  exact ⟨⟨first, amount⟩, ⟨full, amount⟩, by simp⟩

/-- A primary and a helper of one operator: the vault pays the first row of the shared address only. -/
theorem shared_address_underpaid :
    let C := Primitives.marking ((helpedReceipt firstPayee).intentMessageBytes.getD [])
    let X := Externals.serde (fun _ => none) fun text => .ok ⟨text⟩
    let loop : EventLoop C := payingLoop (Vector.replicate 32 0) firstPayee
    let ack := helpedAck C (Vector.replicate 32 0)
    let lines := computePayouts ack (loop.addressesFor ack.requestId)
    let l : Ledger := ⟨[], ⟨1000000, []⟩, [⟨Vector.replicate 16 7⟩, ⟨Vector.replicate 16 8⟩]⟩
    ∃ receipt, Verified C ack ∧ loop.receiptFor ⟨"12D3KooWPeerNode1"⟩ ack 1700000010000 = some receipt ∧
      (∀ line ∈ lines, FullAddress line.suiAddress ∧ line.amountNanox.toNat < 2 ^ 53) ∧
      (receipt.payouts.map (·.amountNanox.toNat)).sum ≤ l.vault.treasury ∧
      (payOut X receipt lines).Ensures (Responds C Sidecar.sampleConfig (C.verifyingKey loop.enclaveKey))
        (fun result t => result = .ok () ∧ ¬ PaidInFull receipt t) l := by
  intro C X loop ack lines l
  have correct : C.Correct := Primitives.marking_correct _
  obtain ⟨receipt, signed, request, timestamp, payouts, binds⟩ := helpedAck_accepted firstPayee
  have wellFormed : ∀ line ∈ lines, FullAddress line.suiAddress ∧ line.amountNanox.toNat < 2 ^ 53 :=
    helpedAck_lines (shortPayee_full (by decide) (by decide)) _
  have funds : (receipt.payouts.map (·.amountNanox.toNat)).sum ≤ l.vault.treasury := by
    rw [payouts]
    decide
  refine ⟨receipt, helpedAck_verified correct _, signed, wellFormed, funds, ?_⟩
  have listed : receipt.payouts = lines.map fun l => ⟨l.suiAddress, l.amountNanox⟩ := payouts
  have configured : Sidecar.sampleConfig.packageId ≠ "" ∧ Sidecar.sampleConfig.vaultId ≠ "" ∧
      Sidecar.sampleConfig.activeEnclaveObjectId ≠ "" := by decide
  have settled := payOut_ensures (X := X) (l := l) (Externals.serde_roundTrip _ _) (payable_of_lines listed wellFormed)
    correct signed binds configured listed nofun nofun (by decide) (by decide) nofun funds
  refine settled.mono ?_
  intro result t given
  obtain ⟨done, paid⟩ := given
  refine ⟨done, ?_⟩
  rw [paid, payouts]
  intro given
  obtain ⟨_, apart⟩ := given
  simp at apart

theorem separate_payees_paid :
    let C := Primitives.marking ((helpedReceipt secondPayee).intentMessageBytes.getD [])
    let X := Externals.serde (fun _ => none) fun text => .ok ⟨text⟩
    let loop : EventLoop C := payingLoop (Vector.replicate 32 0) secondPayee
    let ack := helpedAck C (Vector.replicate 32 0)
    let lines := computePayouts ack (loop.addressesFor ack.requestId)
    let l : Ledger := ⟨[], ⟨1000000, []⟩, [⟨Vector.replicate 16 7⟩, ⟨Vector.replicate 16 8⟩]⟩
    ∃ receipt, Verified C ack ∧ loop.receiptFor ⟨"12D3KooWPeerNode1"⟩ ack 1700000010000 = some receipt ∧
      (payOut X receipt lines).Ensures (Responds C Sidecar.sampleConfig (C.verifyingKey loop.enclaveKey))
        (fun result t => result = .ok () ∧ PaidInFull receipt t) l := by
  intro C X loop ack lines l
  have correct : C.Correct := Primitives.marking_correct _
  obtain ⟨receipt, signed, request, timestamp, payouts, binds⟩ := helpedAck_accepted secondPayee
  have wellFormed : ∀ line ∈ lines, FullAddress line.suiAddress ∧ line.amountNanox.toNat < 2 ^ 53 :=
    helpedAck_lines (shortPayee_full (by decide) (by decide)) _
  have funds : (receipt.payouts.map (·.amountNanox.toNat)).sum ≤ l.vault.treasury := by
    rw [payouts]
    decide
  refine ⟨receipt, helpedAck_verified correct _, signed, ?_⟩
  have settled := payees_paid_in_full_iff X (Externals.serde_roundTrip _ _) correct Sidecar.sampleConfig (by decide) loop
    ⟨"12D3KooWPeerNode1"⟩ ack 1700000010000 receipt signed binds wellFormed l nofun nofun (by decide) (by decide) nofun
    funds
  refine settled.mono ?_
  intro result t given
  obtain ⟨done, paid⟩ := given
  refine ⟨done, paid.mpr ⟨?_, fun _ => by decide⟩⟩
  have apart : Sidecar.pureAddress firstPayee ≠ Sidecar.pureAddress secondPayee := by decide +kernel
  refine List.pairwise_pair.mpr fun _ _ a b left right => ?_
  have first : some firstPayee = some a := left
  have second : some secondPayee = some b := right
  rwa [← Option.some.inj first, ← Option.some.inj second]

end Coordinator
