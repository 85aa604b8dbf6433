import Pinaivu.Coordinator.Externals
import Pinaivu.Coordinator.Payments

namespace Coordinator

open Protocol Async

def settleRows (receipt : RoutingReceipt) : List PendingPayment → Task (Except String Unit)
  | [] => return .ok ()
  | row :: rows => do
    match ← call (.settle receipt row.payeeSuiAddress row.amountNanox.toUInt64) with
    | .ok digest =>
      match ← call (.markSubmitted row.id digest) with
      | .error e => return .error e
      | .ok () => settleRows receipt rows
    | .error _ =>
      match ← call (.markFailed row.id) with
      | .error e => return .error e
      | .ok () => settleRows receipt rows

def handleSettlement (X : Externals) (job : SettlementJob) : Task (Except String Unit) := do
  match ← call (.selectPending job.requestId) with
  | .error e => return .error e
  | .ok rows =>
    if rows.isEmpty then return .ok ()
    else
      match X.receiptFromStr job.receiptJson with
      | .error e => return .error ("deserialize receipt: " ++ e)
      | .ok receipt => settleRows receipt rows

/-- One turn of the loop in `main` that hands jobs from the channel to the apalis queue. -/
def forwardJob : Task Unit := do
  let job ← call .recvJob
  let _ ← call (.pushRequest job)

/-- An execution under apalis, which learns the result. -/
def runSettlement (X : Externals) (job : SettlementJob) : Task Unit := do
  let result ← handleSettlement X job
  call (.jobResult job result)

end Coordinator
