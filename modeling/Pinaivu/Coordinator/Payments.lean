import Pinaivu.Coordinator.Calls

namespace Coordinator

open Protocol Async

structure PayoutLine where
  peerId : String
  suiAddress : String
  amountNanox : UInt64
  deriving DecidableEq, Repr

def computePayouts (ack : CompletionAck) (payoutAddresses : PayoutAddresses) : List PayoutLine :=
  ack.proofs.filterMap fun proof => do
    let peerId := proof.nodePeerId.value
    let suiAddress ← payoutAddresses peerId
    return { peerId, suiAddress, amountNanox := proof.pricePaidNanox.value }

/-- The row an `INSERT` of the line binds; the amount goes in as `BIGINT`. -/
def PayoutLine.row (id : Uuid) (requestId : RequestId) (line : PayoutLine) : PendingPayment where
  id := id
  requestId := requestId
  payeePeerId := line.peerId
  payeeSuiAddress := line.suiAddress
  amountNanox := line.amountNanox.toInt64

/-- One statement a line, each on its own. -/
def insertPending (requestId : RequestId) : List PayoutLine → Task (Except String Unit)
  | [] => return .ok ()
  | line :: lines => do
    let id ← call .newUuid
    match ← call (.insertPayment (line.row id requestId)) with
    | .error e => return .error e
    | .ok () => insertPending requestId lines

inductive PaymentStatus where
  | pending
  | submitted
  | confirmed
  | failed
  deriving DecidableEq, Repr

structure Payment where
  row : PendingPayment
  status : PaymentStatus
  txDigest : Option String
  deriving DecidableEq

/-- The `payments` table in the order of `created_at`. -/
abbrev Payments := List Payment

namespace Payments

/-- `ON CONFLICT DO NOTHING`; the table's only constraint is its primary key. -/
def insert (table : Payments) (row : PendingPayment) : Payments :=
  if table.any (·.row.id = row.id) then table else table ++ [⟨row, .pending, none⟩]

def pendingForRequest (table : Payments) (requestId : RequestId) : List PendingPayment :=
  (table.filter fun p => p.row.requestId = requestId ∧ p.status = .pending).map (·.row)

def update (table : Payments) (id : Uuid) (change : Payment → Payment) : Payments :=
  table.map fun p => if p.row.id = id then change p else p

def markSubmitted (table : Payments) (id : Uuid) (txDigest : String) : Payments :=
  table.update id fun p => { p with status := .submitted, txDigest := some txDigest }

def markFailed (table : Payments) (id : Uuid) : Payments :=
  table.update id fun p => { p with status := .failed }

end Payments

theorem computePayouts_empty (ack : CompletionAck) : computePayouts ack (fun _ => none) = [] := by
  simp [computePayouts]

def paidProofs (ack : CompletionAck) (addresses : PayoutAddresses) : List ProofOfInference :=
  ack.proofs.filter fun proof => (addresses proof.nodePeerId.value).isSome

def payoutLine (addresses : PayoutAddresses) (proof : ProofOfInference) : PayoutLine where
  peerId := proof.nodePeerId.value
  suiAddress := (addresses proof.nodePeerId.value).getD ""
  amountNanox := proof.pricePaidNanox.value

theorem computePayouts_eq_map (ack : CompletionAck) (addresses : PayoutAddresses) :
    computePayouts ack addresses = (paidProofs ack addresses).map (payoutLine addresses) := by
  unfold computePayouts paidProofs
  induction ack.proofs with
  | nil => rfl
  | cons proof proofs ih =>
    cases found : addresses proof.nodePeerId.value with
    | none => simpa [found] using ih
    | some address => simpa [found, payoutLine] using ih

theorem PayoutLine.row_amount (id : Uuid) (requestId : RequestId) (line : PayoutLine) :
    (line.row id requestId).amountNanox.toUInt64 = line.amountNanox := by
  simp [PayoutLine.row]

example : (9223372036854775808 : UInt64).toInt64 = -9223372036854775808 := by decide

theorem Payments.eq_of_mem_insert {table : Payments} {row : PendingPayment} {p : Payment}
    (member : p ∈ table.insert row) : p ∈ table ∨ p = ⟨row, .pending, none⟩ := by
  unfold Payments.insert at member
  split at member
  · exact .inl member
  · rcases List.mem_append.mp member with member | member
    · exact .inl member
    · exact .inr (List.mem_singleton.mp member)

theorem Payments.mem_insert {table : Payments} {row : PendingPayment} {p : Payment}
    (member : p ∈ table.insert row) : p ∈ table ∨ p.row = row := by
  rcases Payments.eq_of_mem_insert member with member | rfl
  · exact .inl member
  · exact .inr rfl

theorem Payments.mem_update {table : Payments} {id : Uuid} {change : Payment → Payment} {p : Payment}
    (member : p ∈ table.update id change) :
    (p ∈ table ∧ p.row.id ≠ id) ∨ ∃ q ∈ table, q.row.id = id ∧ p = change q := by
  simp only [Payments.update, List.mem_map] at member
  rcases member with ⟨q, inside, rfl⟩
  split
  · rename_i same
    exact .inr ⟨q, inside, same, rfl⟩
  · rename_i other
    exact .inl ⟨inside, other⟩

theorem Payments.row_of_mem_update {table : Payments} {id : Uuid} {change : Payment → Payment}
    (keeps : ∀ p, (change p).row = p.row) {p : Payment} (member : p ∈ table.update id change) :
    ∃ q ∈ table, q.row = p.row := by
  simp only [Payments.update, List.mem_map] at member
  rcases member with ⟨q, inside, rfl⟩
  refine ⟨q, inside, ?_⟩
  split
  · exact (keeps q).symm
  · rfl

theorem Payments.mem_pendingForRequest {table : Payments} {requestId : RequestId} {row : PendingPayment}
    (member : row ∈ table.pendingForRequest requestId) :
    row.requestId = requestId ∧ ∃ p ∈ table, p.row = row := by
  simp only [Payments.pendingForRequest, List.mem_map, List.mem_filter, decide_eq_true_eq] at member
  rcases member with ⟨p, ⟨inside, request, _⟩, rfl⟩
  exact ⟨request, p, inside, rfl⟩

theorem Payments.pendingForRequest_of_mem {table : Payments} {requestId : RequestId} {p : Payment} (member : p ∈ table)
    (request : p.row.requestId = requestId) (pending : p.status = .pending) : p.row ∈ table.pendingForRequest requestId := by
  simp only [Payments.pendingForRequest, List.mem_map, List.mem_filter, decide_eq_true_eq]
  exact ⟨p, ⟨member, request, pending⟩, rfl⟩

def rowsFor (requestId : RequestId) (ids : List Uuid) (lines : List PayoutLine) : List PendingPayment :=
  List.zipWith (fun id line => line.row id requestId) ids lines

theorem insert_fresh {table : Payments} {row : PendingPayment} (fresh : ∀ p ∈ table, p.row.id ≠ row.id) :
    table.insert row = table ++ [⟨row, .pending, none⟩] := by
  rw [Payments.insert, if_neg]
  simpa using fresh

theorem rowsFor_ids (requestId : RequestId) (ids : List Uuid) (lines : List PayoutLine) :
    ((rowsFor requestId ids lines).map (·.id)).Sublist ids := by
  induction lines generalizing ids with
  | nil => simp [rowsFor]
  | cons line lines ih =>
    cases ids with
    | nil => simp [rowsFor]
    | cons id ids => exact (ih ids).cons_cons id

theorem rowsFor_requestId {requestId : RequestId} {ids : List Uuid} {lines : List PayoutLine} :
    ∀ row ∈ rowsFor requestId ids lines, row.requestId = requestId := by
  induction lines generalizing ids with
  | nil => simp [rowsFor]
  | cons line lines ih =>
    cases ids with
    | nil => simp [rowsFor]
    | cons id ids =>
      rw [rowsFor, List.zipWith_cons_cons, List.forall_mem_cons]
      exact ⟨rfl, ih⟩

end Coordinator
