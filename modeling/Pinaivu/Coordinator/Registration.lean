import Pinaivu.Async.Typestate
import Pinaivu.Coordinator.Admin

namespace Coordinator

open Wire Async

structure RegisteredEnclave where
  txDigest : String
  enclaveObjectId : String
  deriving DecidableEq

structure RegisterEnclaveResp where
  txDigest : String
  enclaveObjectId : Option String

structure SetEnclaveIdReq where
  enclaveObjectId : String
  txDigest : Option String

structure SetEnclaveIdResp where
  enclaveObjectId : String
  forwardedToSidecar : Bool

inductive EnclaveCall where
  | getHealth
  | sleep (ms : Nat)
  | postRegister (attestation : String)
  | putEnclaveId (id : String)
  | buildClient
  | writeOnChain (enclave : RegisteredEnclave)
  | respond (reply : Except ErrorReply SetEnclaveIdResp)

/-- An HTTP reply is its status, and none when the request could not be sent. -/
abbrev EnclaveAnswer : EnclaveCall → Type
  | .getHealth => Option Nat
  | .postRegister _ => Except String RegisterEnclaveResp
  | .putEnclaveId _ => Option Nat
  | .buildClient => Bool
  | _ => Unit

abbrev EnclaveTask := Routine EnclaveCall EnclaveAnswer

def enclaveCall (op : EnclaveCall) : EnclaveTask (EnclaveAnswer op) := .perform op

def isSuccess (status : Nat) : Bool := 200 ≤ status && status < 300

def waitReady : Nat → EnclaveTask (Except String Unit)
  | 0 => return .ok ()
  | attempts + 1 => do
    if ((← enclaveCall .getHealth).map isSuccess).getD false then return .ok ()
    else
      enclaveCall (.sleep 500)
      if attempts = 0 then return .error "sidecar did not become ready" else waitReady attempts

def registerEnclave (attestation : String) : EnclaveTask (Except String RegisteredEnclave) := do
  match ← enclaveCall (.postRegister attestation) with
  | .error e => return .error e
  | .ok parsed =>
    let id := parsed.enclaveObjectId.getD "<missing>"
    if id ≠ "<missing>" then
      let _ ← enclaveCall (.putEnclaveId id)
    return .ok ⟨parsed.txDigest, id⟩

def registerLoop (attestation : String) : (attempts backoff : Nat) → EnclaveTask Unit
  | 0, _ => return ()
  | attempts + 1, backoff => do
    match ← registerEnclave attestation with
    | .ok reg => enclaveCall (.writeOnChain reg)
    | .error _ =>
      if attempts = 0 then return ()
      else
        enclaveCall (.sleep backoff)
        registerLoop attestation attempts (min (backoff * 2) 60000)

def spawnRegistration (attestation : String) : EnclaveTask Unit := do
  match ← waitReady 60 with
  | .error _ => return ()
  | .ok () => registerLoop attestation 5 2000

def forwardEnclaveId (id : String) : EnclaveTask Bool := do
  if ← enclaveCall .buildClient then
    let reply ← enclaveCall (.putEnclaveId id)
    return (reply.map isSuccess).getD false
  else return false

/-- `POST /v1/admin/set-enclave-id`. -/
def setEnclaveId (env : Option String) (headers : HeaderMap) (req : SetEnclaveIdReq) : EnclaveTask Unit := do
  match checkSecret env headers with
  | .error reply => enclaveCall (.respond (.error reply))
  | .ok _ =>
    let id := trimmed req.enclaveObjectId
    if id = "" then enclaveCall (.respond (.error ⟨400, "enclave_object_id required"⟩))
    else
      enclaveCall (.writeOnChain ⟨req.txDigest.getD "", id⟩)
      let forwarded ← forwardEnclaveId id
      enclaveCall (.respond (.ok ⟨id, forwarded⟩))

structure EnclaveIds where
  onChain : Option RegisteredEnclave
  active : String

def EnclaveIds.Agree (ids : EnclaveIds) : Prop :=
  ∃ enclave, ids.onChain = some enclave ∧ enclave.enclaveObjectId = ids.active

/-- The sidecar may turn a PUT's secret down, and a PUT without a reply may have been handled. -/
def EnclaveIds.effect (ids : EnclaveIds) : (op : EnclaveCall) → EnclaveAnswer op → EnclaveIds → Prop
  | .putEnclaveId id, none, after =>
    after = ids ∨ after = { ids with active := (Sidecar.setEnclaveId ids.active id).1 }
  | .putEnclaveId id, some status, after =>
    (status = 401 ∧ after = ids) ∨
      (after = { ids with active := (Sidecar.setEnclaveId ids.active id).1 } ∧
        status = match (Sidecar.setEnclaveId ids.active id).2 with
          | .ok () => 200
          | .error reply => reply.status)
  | .writeOnChain enclave, _, after => after = { ids with onChain := some enclave }
  | _, _, after => after = ids

inductive EnclaveWriter where
  | registration
  | admin (k : Nat)
  deriving DecidableEq

def EnclaveWriter.spawns (env : Option String) (_ : EnclaveIds) : EnclaveWriter → EnclaveTask Unit → Prop
  | .registration, _ => False
  | .admin _, task => ∃ headers req, task = setEnclaveId env headers req

abbrev EnclavePool := Pool EnclaveWriter EnclaveCall EnclaveAnswer EnclaveIds

abbrev EnclaveLabel := Pool.Label EnclaveWriter EnclaveCall EnclaveAnswer

def EnclavePool.start (attestation : String) (active : String) : EnclavePool where
  tasks
    | .registration => spawnRegistration attestation
    | .admin _ => .done ()
  shared := ⟨none, active⟩

abbrev EnclaveRuns (env : Option String) (attestation active : String)
    (trace : List (EnclavePool × EnclaveLabel)) (p : EnclavePool) : Prop :=
  Async.Run (Pool.Step (EnclaveWriter.spawns env) EnclaveIds.effect)
    (EnclavePool.start attestation active) trace p

end Coordinator
