import Pinaivu.Sidecar.RebuiltMessage

namespace Onchain

open Wire Crypto Protocol Sidecar

structure Settled where
  requestId : List UInt8
  payee : Vector UInt8 32
  amount : UInt64
  deriving DecidableEq

/-- `pinaivu::vault` as `onchain.md` documents it: the pool, and what has been settled from it. -/
structure Vault where
  treasury : Nat
  settled : List Settled

def verifyCompletionReceipt (C : Primitives) (enclave : PublicKey) (call : SettleCall) : Bool :=
  match call.intentMessage.toBytes with
  | .error _ => false
  | .ok message =>
    match verifyMessage C enclave call.signature message with
    | .ok () => true
    | .error _ => false

namespace Vault

def hasSettled (v : Vault) (requestId : List UInt8) (payee : Vector UInt8 32) : Bool :=
  v.settled.any fun s => s.requestId = requestId ∧ s.payee = payee

/-- `vault::settle`; `none` when it aborts. -/
def settle (C : Primitives) (enclave : PublicKey) (v : Vault) (call : SettleCall) : Option Vault :=
  if v.hasSettled call.requestId call.payee then none
  else if verifyCompletionReceipt C enclave call = false then none
  else if (⟨call.payee, call.amount⟩ : PayoutBcs) ∉ call.payouts then none
  else if v.treasury < call.amount.toNat then none
  else some {
    treasury := v.treasury - call.amount.toNat
    settled := v.settled ++ [⟨call.requestId, call.payee, call.amount⟩] }

def pay (v : Vault) (requestId : List UInt8) (payee : Vector UInt8 32) (amount : UInt64) : Vault where
  treasury := v.treasury - amount.toNat
  settled := v.settled ++ [⟨requestId, payee, amount⟩]

def received (v : Vault) (requestId : List UInt8) (payee : Vector UInt8 32) : Nat :=
  ((v.settled.filter fun s => s.requestId = requestId ∧ s.payee = payee).map (·.amount.toNat)).sum

theorem hasSettled_pay (v : Vault) (requestId : List UInt8) (payee other : Vector UInt8 32) (amount : UInt64) :
    (v.pay requestId payee amount).hasSettled requestId other = false ↔
      v.hasSettled requestId other = false ∧ payee ≠ other := by
  simp only [hasSettled, pay, List.any_append, List.any_cons, List.any_nil, Bool.or_false, Bool.or_eq_false_iff,
    true_and, decide_eq_false_iff_not, ne_eq]

theorem received_pay (v : Vault) (requestId : List UInt8) (payee other : Vector UInt8 32) (amount : UInt64) :
    (v.pay requestId payee amount).received requestId other =
      v.received requestId other + if payee = other then amount.toNat else 0 := by
  simp only [received, pay, List.filter_append, List.map_append, List.sum_append]
  by_cases same : payee = other <;> simp [same]

theorem hasSettled_of_fresh {v : Vault} {requestId : List UInt8} (fresh : ∀ s ∈ v.settled, s.requestId ≠ requestId)
    (payee : Vector UInt8 32) : v.hasSettled requestId payee = false := by
  rw [hasSettled, List.any_eq_false]
  intro s member
  simp [fresh s member]

theorem received_of_fresh {v : Vault} {requestId : List UInt8} (fresh : ∀ s ∈ v.settled, s.requestId ≠ requestId)
    (payee : Vector UInt8 32) : v.received requestId payee = 0 := by
  have empty : (v.settled.filter fun s => s.requestId = requestId ∧ s.payee = payee) = [] := by
    rw [List.filter_eq_nil_iff]
    intro s member
    simp [fresh s member]
  rw [received, empty]
  rfl

end Vault

variable {C : Primitives} {key : C.SigningKey} {r receipt : RoutingReceipt} {config : Config} {payee : String}
  {amount : UInt64} {call : SettleCall}

/-- The numbers and addresses of a receipt that the sidecar passes on as they were signed. -/
def PassedOn (receipt : RoutingReceipt) : Prop :=
  ExactDouble receipt.timestampMs.toNat ∧
    ∀ p ∈ receipt.payouts, SameAddress p.suiAddress ∧ ExactDouble p.amountNanox.toNat

/-- The enclave's signature is accepted for the message the sidecar has rebuilt exactly when that is
    the signed one. -/
theorem verifyCompletionReceipt_iff (correct : C.Correct) (signed : r.sign C key = some receipt)
    (binds : ∀ message, receipt.intentMessageBytes = some message → C.Binds key message)
    (built : postSettle config (settleReq receipt payee amount).receive = some call) :
    verifyCompletionReceipt C (C.verifyingKey key) call = true ↔ PassedOn receipt := by
  obtain ⟨message, encoded, shape⟩ := RoutingReceipt.sign_eq_some signed
  have signature : call.signature = signMessage C key message := by
    rw [(postSettle_arguments built).2.2.2, shape]
  rw [PassedOn, ← rebuilt_bytes_eq_iff signed built, encoded]
  unfold verifyCompletionReceipt
  rw [signature]
  cases result : call.intentMessage.toBytes with
  | error e => simp [Except.toOption]
  | ok rebuilt =>
    change _ ↔ some rebuilt = some message
    rw [Option.some.injEq]
    dsimp only
    constructor
    · intro accepted
      cases verdict : verifyMessage C (C.verifyingKey key) (signMessage C key message) rebuilt with
      | error e =>
        rw [verdict] at accepted
        cases accepted
      | ok => exact verifyMessage_binds (binds message encoded) verdict
    · intro same
      subst same
      rw [verifyMessage_signed correct]

theorem verifyCompletionReceipt_signed (correct : C.Correct) (signed : r.sign C key = some receipt)
    (passed : PassedOn receipt) (built : postSettle config (settleReq receipt payee amount).receive = some call) :
    verifyCompletionReceipt C (C.verifyingKey key) call = true := by
  obtain ⟨message, encoded, shape⟩ := RoutingReceipt.sign_eq_some signed
  have rebuilt := (rebuilt_bytes_eq_iff signed built).mpr passed
  unfold verifyCompletionReceipt
  cases result : call.intentMessage.toBytes with
  | error e =>
    rw [result, encoded] at rebuilt
    cases rebuilt
  | ok found =>
    rw [result, encoded] at rebuilt
    obtain rfl := Option.some.inj rebuilt
    rw [(postSettle_arguments built).2.2.2, shape]
    dsimp only
    rw [verifyMessage_signed correct]

theorem mem_of_mapM {α β : Type} {f : α → Option β} {xs : List α} {ys : List β} (mapped : xs.mapM f = some ys)
    {x : α} {y : β} (member : x ∈ xs) (image : f x = some y) : y ∈ ys := by
  induction xs generalizing ys with
  | nil => cases member
  | cons head rest ih =>
    simp only [List.mapM_cons, Option.bind_eq_bind, Option.bind_eq_some_iff, Option.pure_def,
      Option.some.injEq] at mapped
    obtain ⟨first, found, others, tail, rfl⟩ := mapped
    rcases List.mem_cons.mp member with rfl | inside
    · rw [found] at image
      exact List.mem_cons.mpr (.inl (Option.some.inj image).symm)
    · exact List.mem_cons_of_mem _ (ih tail inside)

theorem postSettle_listed (built : postSettle config (settleReq receipt payee amount).receive = some call)
    (listed : ⟨payee, amount⟩ ∈ receipt.payouts) : (⟨call.payee, call.amount⟩ : PayoutBcs) ∈ call.payouts := by
  obtain ⟨_, address, value, _⟩ := postSettle_arguments built
  apply mem_of_mapM (postSettle_eq_some built).2.2.1 (List.mem_map_of_mem listed)
  simp [newPayout, receivedPayout, address, value]

theorem Vault.settle_eq (v : Vault) (built : postSettle config (settleReq receipt payee amount).receive = some call)
    (listed : ⟨payee, amount⟩ ∈ receipt.payouts)
    (verified : verifyCompletionReceipt C (C.verifyingKey key) call = true)
    (fresh : v.hasSettled call.requestId call.payee = false) (funds : call.amount.toNat ≤ v.treasury) :
    v.settle C (C.verifyingKey key) call = some (v.pay call.requestId call.payee call.amount) := by
  rw [Vault.settle, Vault.pay, fresh, if_neg Bool.false_ne_true, if_neg (by simp [verified]),
    if_neg (not_not.mpr (postSettle_listed built listed)), if_neg (Nat.not_lt.mpr funds)]

/-- What a request to `POST /sui/settle` makes of the vault; `none` when the sidecar refuses it or the
    transaction aborts. -/
def submit (C : Primitives) (config : Config) (enclave : PublicKey) (v : Vault) (receipt : RoutingReceipt)
    (payee : String) (amount : UInt64) : Option Vault :=
  (postSettle config (settleReq receipt payee amount).receive).bind (v.settle C enclave)

def FullAddress (s : String) : Prop :=
  ∃ digits, s.toList = '0' :: 'x' :: digits ∧ digits.length = 64 ∧ ∀ c ∈ digits, (hexValue c).isSome = true

theorem FullAddress.pureAddress {s : String} (full : FullAddress s) : ∃ address, pureAddress s = some address := by
  obtain ⟨digits, shape, length, symbols⟩ := full
  obtain ⟨bytes, decoded⟩ := hexDecode_isSome symbols (by omega)
  have width : bytes.length = 32 := by
    have := hexDecode_length decoded
    omega
  refine ⟨⟨bytes.toArray, by simpa using width⟩, ?_⟩
  simp [Sidecar.pureAddress, shape, addressDigits, length, decoded, width]

theorem FullAddress.sameAddress {s : String} (full : FullAddress s) : SameAddress s := by
  obtain ⟨digits, shape, length, _⟩ := full
  refine .inr ⟨?_, ?_⟩
  · rw [shape]
    change digits.length % 2 = 0
    omega
  · rw [shape]
    intro given
    obtain ⟨rest, same⟩ := given
    simp at same

theorem mapM_isSome {α β : Type} {f : α → Option β} {xs : List α} (each : ∀ x ∈ xs, (f x).isSome) :
    (xs.mapM f).isSome := by
  induction xs with
  | nil => rfl
  | cons head rest ih =>
    obtain ⟨y, found⟩ := Option.isSome_iff_exists.mp (each head List.mem_cons_self)
    obtain ⟨ys, others⟩ := Option.isSome_iff_exists.mp (ih fun x member => each x (List.mem_cons_of_mem _ member))
    simp [List.mapM_cons, found, others]

theorem pureU64_exact {n : UInt64} (exact : ExactDouble n.toNat) : pureU64 (roundToDouble n.toNat) = some n := by
  rw [(roundToDouble_eq_self_iff _).mpr exact, pureU64, if_pos n.toNat_lt, UInt64.ofNat_toNat]

/-- The receipts a claim of full payment is about: addresses and amounts that no part of the way changes. -/
structure Payable (receipt : RoutingReceipt) : Prop where
  addresses : ∀ p ∈ receipt.payouts, FullAddress p.suiAddress
  amounts : ∀ p ∈ receipt.payouts, p.amountNanox.toNat < 2 ^ 53

theorem Payable.passedOn_iff (payable : Payable receipt) :
    PassedOn receipt ↔ ExactDouble receipt.timestampMs.toNat := by
  refine ⟨fun passed => passed.1, fun exact => ⟨exact, fun p member => ?_⟩⟩
  exact ⟨(payable.addresses p member).sameAddress, exactDouble_of_lt (payable.amounts p member)⟩

theorem Payable.postSettle (payable : Payable receipt)
    (configured : config.packageId ≠ "" ∧ config.vaultId ≠ "" ∧ config.activeEnclaveObjectId ≠ "")
    (listed : ⟨payee, amount⟩ ∈ receipt.payouts) (positive : 0 < amount)
    (exact : ExactDouble receipt.timestampMs.toNat) :
    ∃ call, postSettle config (settleReq receipt payee amount).receive = some call := by
  have exactAmount := exactDouble_of_lt (payable.amounts _ listed)
  obtain ⟨address, accepted⟩ := (payable.addresses _ listed).pureAddress
  apply postSettle_isSome config receipt payee amount configured
  · rw [(roundToDouble_eq_self_iff _).mpr exactAmount]
    exact positive
  · rw [accepted]
    rfl
  · rw [pureU64_exact exactAmount]
    rfl
  · rw [pureU64_exact exact]
    rfl
  · apply mapM_isSome
    intro x member
    obtain ⟨p, inside, rfl⟩ := List.mem_map.mp member
    obtain ⟨bytes, found⟩ := (payable.addresses p inside).pureAddress
    simp [newPayout, receivedPayout, found, pureU64_exact (exactDouble_of_lt (payable.amounts p inside))]

theorem Payable.submit_eq (payable : Payable receipt) (correct : C.Correct) (signed : r.sign C key = some receipt)
    (binds : ∀ message, receipt.intentMessageBytes = some message → C.Binds key message)
    (configured : config.packageId ≠ "" ∧ config.vaultId ≠ "" ∧ config.activeEnclaveObjectId ≠ "")
    (listed : ⟨payee, amount⟩ ∈ receipt.payouts) {address : Vector UInt8 32}
    (accepted : Sidecar.pureAddress payee = some address) (v : Vault) (funds : amount.toNat ≤ v.treasury) :
    submit C config (C.verifyingKey key) v receipt payee amount =
      if 0 < amount ∧ ExactDouble receipt.timestampMs.toNat ∧
          v.hasSettled receipt.requestId.bytes.toList address = false then
        some (v.pay receipt.requestId.bytes.toList address amount)
      else none := by
  cases built : Sidecar.postSettle config (settleReq receipt payee amount).receive with
  | none =>
    rw [submit, built, if_neg]
    · rfl
    · intro given
      obtain ⟨positive, exact, _⟩ := given
      obtain ⟨call, possible⟩ := payable.postSettle configured listed positive exact
      rw [built] at possible
      cases possible
  | some call =>
    obtain ⟨positive, address', value, _⟩ := postSettle_arguments built
    have exactAmount : ExactDouble amount.toNat := exactDouble_of_lt (payable.amounts _ listed)
    rw [(roundToDouble_eq_self_iff _).mpr exactAmount] at positive
    rw [pureU64_exact exactAmount, Option.some.injEq] at value
    have due : 0 < call.amount := by
      rw [← value]
      exact positive
    rw [accepted, Option.some.injEq] at address'
    have request := (postSettle_eq_some built).1
    have verified := verifyCompletionReceipt_iff correct signed binds built
    rw [payable.passedOn_iff] at verified
    rw [submit, built, Option.bind_some, address', value, ← request]
    by_cases allowed : ExactDouble receipt.timestampMs.toNat ∧ v.hasSettled call.requestId call.payee = false
    · rw [if_pos ⟨due, allowed⟩]
      exact v.settle_eq built listed (verified.mpr allowed.1) allowed.2 (by rwa [← value])
    · rw [if_neg fun holds => allowed holds.2, Vault.settle]
      split
      · rfl
      · rename_i fresh
        rw [if_pos]
        rw [← Bool.not_eq_true, verified]
        exact fun exact => allowed ⟨exact, by simpa using fresh⟩

end Onchain
