import Pinaivu.Coordinator.Externals

namespace Coordinator

open Protocol Wire

/-- `InMemoryReceiptArchive` keeps receipts, `PostgresReceiptArchive` their JSONB values. -/
inductive ReceiptArchive where
  | inMemory (receipts : RequestId → Option RoutingReceipt)
  | postgres (rows : RequestId → Option Json)

namespace ReceiptArchive

/-- A successful `put`: both implementations overwrite what they hold for the request. -/
def put (X : Externals) (receipt : RoutingReceipt) : ReceiptArchive → ReceiptArchive
  | .inMemory receipts => .inMemory (Function.update receipts receipt.requestId (some receipt))
  | .postgres rows =>
    .postgres (Function.update rows receipt.requestId (some (X.receiptToValue receipt)))

def get (X : Externals) (requestId : RequestId) : ReceiptArchive → Except String (Option RoutingReceipt)
  | .inMemory receipts => .ok (receipts requestId)
  | .postgres rows =>
    match rows requestId with
    | none => .ok none
    | some value => (X.receiptFromValue value).map some

/-- The in-memory archive returns `Ok` always; a database statement may fail, and then does nothing. -/
def mayFail : ReceiptArchive → Bool
  | .inMemory _ => false
  | .postgres _ => true

/-- `get`, with what became of its statement. -/
def lookup (X : Externals) (requestId : RequestId) (selected : Except String Unit) (archive : ReceiptArchive) :
    Except String (Option RoutingReceipt) :=
  match archive.mayFail, selected with
  | true, .error e => .error e
  | _, _ => archive.get X requestId

theorem get_put_same {X : Externals} (faithful : X.RoundTrip) (receipt : RoutingReceipt)
    (archive : ReceiptArchive) : (archive.put X receipt).get X receipt.requestId = .ok (some receipt) := by
  cases archive with
  | inMemory receipts => simp [put, get]
  | postgres rows => simp [put, get, faithful.value, Except.map]

theorem get_put_other {X : Externals} (receipt : RoutingReceipt) (archive : ReceiptArchive)
    {requestId : RequestId} (other : requestId ≠ receipt.requestId) :
    (archive.put X receipt).get X requestId = archive.get X requestId := by
  cases archive with
  | inMemory receipts => simp [put, get, other]
  | postgres rows => simp [put, get, other]

end ReceiptArchive

end Coordinator
