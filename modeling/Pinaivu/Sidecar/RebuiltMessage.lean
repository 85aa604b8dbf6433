import Pinaivu.Sidecar.Settle
import Pinaivu.Protocol.ReceiptBinding

namespace Sidecar

open Wire Crypto Protocol

theorem hexEncode_length (bytes : List UInt8) : (hexEncode bytes).length = 2 * bytes.length :=
  hexDecode_length (hexDecode_hexEncode bytes)

theorem uuidStringToBytes_toString (u : Uuid) : uuidStringToBytes u.toString = some u.bytes.toList := by
  have hex : u.toString.toList.filter (· ≠ '-') = hexEncode u.bytes.toList := by
    rw [Uuid.toString, String.toList_ofList]
    exact u.text_without_dashes
  have symbols : (hexEncode u.bytes.toList).all (fun c => (hexValue c).isSome) = true :=
    List.all_eq_true.mpr (hexDecode_symbols (hexDecode_hexEncode _))
  simp only [uuidStringToBytes, hex, hexEncode_length, Vector.length_toList, symbols,
    hexDecode_hexEncode, and_self, ↓reduceIte]

theorem bufferFromHex_of_hexDecode {text : List Char} {bytes : List UInt8}
    (decoded : hexDecode text = some bytes) : bufferFromHex text = bytes := by
  induction text using hexDecode.induct generalizing bytes with
  | case1 =>
    cases decoded
    rfl
  | case2 c => cases decoded
  | case3 high low rest ih =>
    obtain ⟨h, l, tail, hh, hl, decodedRest, rfl⟩ := hexDecode_cons_cons decoded
    simp [bufferFromHex, hh, hl, ih decodedRest]

theorem pureU64_rounded {n m : UInt64} (built : pureU64 (roundToDouble n.toNat) = some m) :
    m = n ↔ ExactDouble n.toNat := by
  unfold pureU64 at built
  split at built
  · rename_i bound
    rw [← roundToDouble_eq_self_iff, ← Option.some.inj built, ← UInt64.toNat_inj, UInt64.toNat_ofNat',
      Nat.mod_eq_of_lt bound]
  · cases built

/-- Where Rust's `parse_sui_address` and the Sui SDK read the same bytes from one address text. -/
def SameAddress (s : String) : Prop :=
  (∀ d ∈ addressDigits s.toList, d = '0') ∨
    ((addressDigits s.toList).length % 2 = 0 ∧ ¬ ['0', 'X'] <+: s.toList)

theorem solid_of_hexValue {c : Char} (hex : (hexValue c).isSome = true) : isWhitespace c = false := by
  have range : 48 ≤ c.toNat ∧ c.toNat ≤ 102 := by
    unfold hexValue at hex
    split at hex
    · rename_i bounds
      have low : 48 ≤ c.toNat := bounds.1
      have high : c.toNat ≤ 57 := bounds.2
      omega
    split at hex
    · rename_i bounds
      have low : 97 ≤ c.toNat := bounds.1
      have high : c.toNat ≤ 102 := bounds.2
      omega
    split at hex
    · rename_i bounds
      have low : 65 ≤ c.toNat := bounds.1
      have high : c.toNat ≤ 70 := bounds.2
      omega
    · simp at hex
  simp only [isWhitespace, Bool.or_eq_false_iff, Bool.and_eq_false_iff, decide_eq_false_iff_not]
  omega

theorem addressDigits_cases (text : List Char) :
    text = '0' :: 'x' :: addressDigits text ∨ text = '0' :: 'X' :: addressDigits text ∨
      (addressDigits text = text ∧ ¬ ['0', 'X'] <+: text) := by
  unfold addressDigits
  split
  · exact .inl rfl
  · exact .inr (.inl rfl)
  · rename_i notUpper
    refine .inr (.inr ⟨rfl, ?_⟩)
    intro given
    obtain ⟨rest, shape⟩ := given
    exact notUpper rest shape.symm

theorem prefixed_solid {x : Char} {digits : List Char} (marker : isWhitespace x = false)
    (symbols : ∀ c ∈ digits, (hexValue c).isSome = true) :
    ∀ c ∈ '0' :: x :: digits, isWhitespace c = false := by
  intro c member
  rcases List.mem_cons.mp member with rfl | member
  · decide
  rcases List.mem_cons.mp member with rfl | member
  · exact marker
  · exact solid_of_hexValue (symbols c member)

theorem trimmed_address {text : List Char}
    (symbols : ∀ c ∈ addressDigits text, (hexValue c).isSome = true) :
    trimStart0x (trim text) = if ['0', 'X'] <+: text then text else addressDigits text := by
  generalize shape : addressDigits text = digits at symbols ⊢
  rcases addressDigits_cases text with lower | upper | ⟨bare, notUpper⟩
  · rw [shape] at lower
    subst text
    rw [trim_of_solid (prefixed_solid (by decide) symbols), trimStart0x, trimStart0x_of_hex symbols]
    simp
  · rw [shape] at upper
    subst text
    rw [trim_of_solid (prefixed_solid (by decide) symbols)]
    simp [trimStart0x]
  · rw [bare] at shape
    subst text
    rw [trim_of_solid (fun c member => solid_of_hexValue (symbols c member)),
      trimStart0x_of_hex symbols, if_neg notUpper]

theorem pureAddress_eq_some {s : String} {address : Vector UInt8 32}
    (accepted : pureAddress s = some address) :
    (addressDigits s.toList).length ≤ 64 ∧
      hexDecode (List.replicate (64 - (addressDigits s.toList).length) '0' ++
        addressDigits s.toList) = some address.toList := by
  simp only [pureAddress] at accepted
  split at accepted
  · rename_i bounds
    refine ⟨bounds.2, ?_⟩
    split at accepted
    · rename_i bytes decoded
      split at accepted
      · rename_i width
        rw [decoded, ← Option.some.inj accepted]
        rfl
      · cases accepted
    · cases accepted
  · cases accepted

theorem zeros_all_zero (count : Nat) (digits : List Char) :
    (∀ c ∈ List.replicate count '0' ++ digits, c = '0') ↔ ∀ c ∈ digits, c = '0' := by
  simp only [List.mem_append, List.mem_replicate]
  constructor
  · intro all c member
    exact all c (.inr member)
  · intro all c given
    rcases given with ⟨_, rfl⟩ | member
    · rfl
    · exact all c member

theorem parseSuiAddress_eq_iff {s : String} {address : Vector UInt8 32}
    (accepted : pureAddress s = some address) : parseSuiAddress s = address ↔ SameAddress s := by
  obtain ⟨bound, decoded⟩ := pureAddress_eq_some accepted
  have allSymbols := hexDecode_symbols decoded
  have symbols : ∀ c ∈ addressDigits s.toList, (hexValue c).isSome = true :=
    fun c member => allSymbols c (List.mem_append_right _ member)
  have zero : address = zeroAddress ↔ ∀ d ∈ addressDigits s.toList, d = '0' := by
    rw [← zeros_all_zero (64 - (addressDigits s.toList).length), ← hexDecode_zero_iff decoded,
      ← Vector.toList_inj, show zeroAddress.toList = List.replicate 32 0 from rfl, List.eq_replicate_iff]
    simp
  by_cases upper : ['0', 'X'] <+: s.toList
  · have rejected : hexDecode s.toList = none := by
      rcases upper with ⟨rest, shape⟩
      rw [← shape]
      rfl
    have signed : parseSuiAddress s = zeroAddress := by
      rw [parseSuiAddress, trimmed_address symbols, if_pos upper, rejected]
    rw [signed, SameAddress, eq_comm, zero]
    simp [upper]
  · by_cases even : (addressDigits s.toList).length % 2 = 0
    · obtain ⟨bytes, digitsDecoded⟩ := hexDecode_isSome symbols even
      have length := hexDecode_length digitsDecoded
      have fits : bytes.length ≤ 32 := by omega
      have signed : parseSuiAddress s = leftPad bytes fits := by
        rw [parseSuiAddress, trimmed_address symbols, if_neg upper, digitsDecoded]
        simp [fits]
      have padding : 64 - (addressDigits s.toList).length = 2 * (32 - bytes.length) := by omega
      rw [padding, hexDecode_zeros, digitsDecoded, Option.map_some, Option.some.injEq] at decoded
      have same : parseSuiAddress s = address := by
        rw [signed, ← Vector.toList_inj, ← decoded]
        rfl
      simp [same, SameAddress, even, upper]
    · have rejected : hexDecode (addressDigits s.toList) = none := by
        by_contra present
        obtain ⟨bytes, digitsDecoded⟩ := Option.ne_none_iff_exists'.mp present
        have length := hexDecode_length digitsDecoded
        omega
      have signed : parseSuiAddress s = zeroAddress := by
        rw [parseSuiAddress, trimmed_address symbols, if_neg upper, rejected]
      rw [signed, SameAddress, eq_comm, zero]
      simp [even]

def receivedPayout (p : Payout) : String × Nat := (p.suiAddress, roundToDouble p.amountNanox.toNat)

theorem newPayout_eq_iff {p : Payout} {q : PayoutBcs}
    (built : newPayout (receivedPayout p) = some q) :
    q = payoutBcs p ↔ SameAddress p.suiAddress ∧ ExactDouble p.amountNanox.toNat := by
  simp only [newPayout, receivedPayout, Option.bind_eq_bind, Option.bind_eq_some_iff, Option.pure_def,
    Option.some.injEq] at built
  rcases built with ⟨address, accepted, amount, encoded, rfl⟩
  rw [payoutBcs, PayoutBcs.mk.injEq, pureU64_rounded encoded, eq_comm, parseSuiAddress_eq_iff accepted]

theorem newPayouts_eq_iff (ps : List Payout) (qs : List PayoutBcs)
    (built : (ps.map receivedPayout).mapM newPayout = some qs) :
    qs = ps.map payoutBcs ↔
      ∀ p ∈ ps, SameAddress p.suiAddress ∧ ExactDouble p.amountNanox.toNat := by
  induction ps generalizing qs with
  | nil =>
    cases built
    simp
  | cons p ps ih =>
    simp only [List.map_cons, List.mapM_cons, Option.bind_eq_bind, Option.bind_eq_some_iff,
      Option.pure_def, Option.some.injEq] at built
    rcases built with ⟨q, first, rest, others, rfl⟩
    rw [List.map_cons, List.cons.injEq, newPayout_eq_iff first, ih rest others, List.forall_mem_cons]

theorem buildSettle_of_postSettle {config : Config} {body : SettleBody} {call : SettleCall}
    (built : postSettle config body = some call) : buildSettle body = some call := by
  unfold postSettle at built
  split at built
  · split at built
    · cases built
    split at built
    · cases built
    · exact built
  · cases built

theorem postSettle_eq_some {config : Config} {receipt : RoutingReceipt} {payee : String}
    {amount : UInt64} {call : SettleCall}
    (built : postSettle config (settleReq receipt payee amount).receive = some call) :
    call.requestId = receipt.requestId.bytes.toList ∧
      call.aggregatedOutputHash = receipt.aggregatedOutputHash.toList ∧
      (receipt.payouts.map receivedPayout).mapM newPayout = some call.payouts ∧
      pureU64 (roundToDouble receipt.timestampMs.toNat) = some call.timestampMs := by
  have steps := buildSettle_of_postSettle built
  simp only [buildSettle, SettleReq.receive, settleReq, List.map_map, Option.bind_eq_bind,
    Option.bind_eq_some_iff, Option.pure_def, Option.some.injEq] at steps
  rcases steps with ⟨payouts, encodedPayouts, requestId, encodedId, _, _, _, _, timestamp, encodedTime, rfl⟩
  rw [uuidStringToBytes_toString, Option.some.injEq] at encodedId
  refine ⟨encodedId.symm, ?_, encodedPayouts, encodedTime⟩
  rw [String.toList_ofList]
  exact bufferFromHex_of_hexDecode (hexDecode_hexEncode _)

theorem postSettle_arguments {config : Config} {receipt : RoutingReceipt} {payee : String}
    {amount : UInt64} {call : SettleCall}
    (built : postSettle config (settleReq receipt payee amount).receive = some call) :
    0 < roundToDouble amount.toNat ∧ pureAddress payee = some call.payee ∧
      pureU64 (roundToDouble amount.toNat) = some call.amount ∧ call.signature = receipt.signature := by
  have positive : 0 < roundToDouble amount.toNat := by
    unfold postSettle at built
    split at built
    · rename_i accepted
      simpa [settleSchema, SettleReq.receive, settleReq] using accepted
    · cases built
  have steps := buildSettle_of_postSettle built
  simp only [buildSettle, SettleReq.receive, settleReq, List.map_map, Option.bind_eq_bind,
    Option.bind_eq_some_iff, Option.pure_def, Option.some.injEq] at steps
  rcases steps with ⟨_, _, _, _, address, encodedAddress, value, encodedAmount, _, _, rfl⟩
  refine ⟨positive, encodedAddress, encodedAmount, ?_⟩
  change bufferFromHex (String.ofList (hexEncode receipt.signature)).toList = receipt.signature
  rw [String.toList_ofList]
  exact bufferFromHex_of_hexDecode (hexDecode_hexEncode _)

theorem rebuilt_intentMessage_eq_iff {config : Config} {receipt : RoutingReceipt} {payee : String}
    {amount : UInt64} {call : SettleCall}
    (built : postSettle config (settleReq receipt payee amount).receive = some call) :
    call.intentMessage = receipt.intentMessage ↔
      ExactDouble receipt.timestampMs.toNat ∧
        ∀ p ∈ receipt.payouts, SameAddress p.suiAddress ∧ ExactDouble p.amountNanox.toNat := by
  obtain ⟨requestId, hash, payouts, timestamp⟩ := postSettle_eq_some built
  simp only [SettleCall.intentMessage, RoutingReceipt.intentMessage, IntentMessage.mk.injEq,
    ReceiptPayloadBcs.mk.injEq, requestId, hash, true_and, pureU64_rounded timestamp,
    newPayouts_eq_iff _ _ payouts]

theorem rebuilt_bytes_eq_iff {C : Primitives} {key : C.SigningKey} {r receipt : RoutingReceipt}
    (signed : r.sign C key = some receipt) {config : Config} {payee : String} {amount : UInt64}
    {call : SettleCall}
    (built : postSettle config (settleReq receipt payee amount).receive = some call) :
    call.intentMessage.toBytes.toOption = receipt.intentMessageBytes ↔
      ExactDouble receipt.timestampMs.toNat ∧
        ∀ p ∈ receipt.payouts, SameAddress p.suiAddress ∧ ExactDouble p.amountNanox.toNat := by
  rw [← rebuilt_intentMessage_eq_iff built]
  obtain ⟨message, encoded, _⟩ := RoutingReceipt.sign_eq_some signed
  have bytes : receipt.intentMessage.toBytes = .ok message := by
    rw [RoutingReceipt.intentMessageBytes] at encoded
    cases result : receipt.intentMessage.toBytes with
    | error e => rw [result] at encoded; cases encoded
    | ok found => rw [result] at encoded; exact congrArg _ (Option.some.inj encoded)
  constructor
  · intro same
    rw [encoded] at same
    cases result : call.intentMessage.toBytes with
    | error e => rw [result] at same; cases same
    | ok found =>
      rw [result] at same
      have equal : found = message := Option.some.inj same
      subst found
      exact IntentMessage.toBytes_inj result bytes
  · intro same
    rw [same, RoutingReceipt.intentMessageBytes]

/-- The sidecar rebuilds the signed message exactly when a double holds each of its numbers and Rust and the SDK
    agree on every payout address. -/
theorem sidecar_rebuilds_signed_message (C : Primitives) (key : C.SigningKey) (r receipt : RoutingReceipt)
    (signed : r.sign C key = some receipt) (config : Config) (payee : String) (amount : UInt64)
    (call : SettleCall) (built : postSettle config (settleReq receipt payee amount).receive = some call) :
    call.intentMessage.toBytes.toOption = receipt.intentMessageBytes ↔
      ExactDouble receipt.timestampMs.toNat ∧
        ∀ p ∈ receipt.payouts, SameAddress p.suiAddress ∧ ExactDouble p.amountNanox.toNat :=
  rebuilt_bytes_eq_iff signed built

theorem postSettle_isSome (config : Config) (receipt : RoutingReceipt) (payee : String) (amount : UInt64)
    (configured : config.packageId ≠ "" ∧ config.vaultId ≠ "" ∧ config.activeEnclaveObjectId ≠ "")
    (positive : 0 < roundToDouble amount.toNat) (payeeAddress : (pureAddress payee).isSome)
    (amountFits : (pureU64 (roundToDouble amount.toNat)).isSome)
    (timestampFits : (pureU64 (roundToDouble receipt.timestampMs.toNat)).isSome)
    (payoutsFit : ((receipt.payouts.map receivedPayout).mapM newPayout).isSome) :
    ∃ call, postSettle config (settleReq receipt payee amount).receive = some call := by
  obtain ⟨payeeBytes, payeeAddress⟩ := Option.isSome_iff_exists.mp payeeAddress
  obtain ⟨amountValue, amountFits⟩ := Option.isSome_iff_exists.mp amountFits
  obtain ⟨timestamp, timestampFits⟩ := Option.isSome_iff_exists.mp timestampFits
  obtain ⟨payouts, payoutsFit⟩ := Option.isSome_iff_exists.mp payoutsFit
  have received : (settleReq receipt payee amount).receive.payouts =
      receipt.payouts.map receivedPayout := by
    simp only [SettleReq.receive, settleReq, List.map_map]
    rfl
  have accepted : settleSchema (settleReq receipt payee amount).receive = true := by
    simpa [settleSchema, SettleReq.receive, settleReq] using positive
  have steps : ∃ call, buildSettle (settleReq receipt payee amount).receive = some call := by
    rw [buildSettle, received, payoutsFit]
    simp only [SettleReq.receive, settleReq, uuidStringToBytes_toString, payeeAddress, amountFits,
      timestampFits, Option.bind_eq_bind, Option.bind_some]
    exact ⟨_, rfl⟩
  rcases steps with ⟨call, steps⟩
  refine ⟨call, ?_⟩
  simp [postSettle, accepted, configured, steps]

def sampleConfig : Config := ⟨"0x60", "0x7a", "0xe1"⟩

theorem sample_message_rebuilt :
    ∃ receipt call,
      sampleReceipt.sign (Primitives.marking []) (Vector.replicate 32 0) = some receipt ∧
      postSettle sampleConfig (settleReq receipt "0x0abc" 1000).receive = some call ∧
      call.intentMessage.toBytes.toOption = receipt.intentMessageBytes := by
  obtain ⟨message, _, made⟩ :=
    sampleReceipt.sign_isSome (Primitives.marking []) (Vector.replicate 32 0) (by decide)
  have payouts : ((sampleReceipt.payouts.map receivedPayout).mapM newPayout).isSome = true := by
    decide +kernel
  have timestamp : (pureU64 (roundToDouble sampleReceipt.timestampMs.toNat)).isSome = true := by decide
  have exactTime : ExactDouble sampleReceipt.timestampMs.toNat := exactDouble_of_lt (by decide)
  have exactAmounts : ∀ p ∈ sampleReceipt.payouts, ExactDouble p.amountNanox.toNat := by decide
  obtain ⟨call, built⟩ := postSettle_isSome sampleConfig
    { sampleReceipt with
      coordinatorPubkey := (Primitives.marking []).verifyingKey (Vector.replicate 32 0)
      signature := signMessage (Primitives.marking []) (Vector.replicate 32 0) message }
    "0x0abc" 1000 (by decide) (by decide) (by decide) (by decide) timestamp payouts
  refine ⟨_, call, made, built, ?_⟩
  apply (sidecar_rebuilds_signed_message _ _ _ _ made sampleConfig "0x0abc" 1000 call built).mpr
  refine ⟨exactTime, fun p member => ⟨?_, exactAmounts p member⟩⟩
  simp only [sampleReceipt, List.mem_cons, List.not_mem_nil, or_false] at member
  rcases member with rfl | rfl
  · exact .inr (by decide)
  · exact .inr (by decide)

/-- An odd number of digits: the coordinator signs the zero address, the sidecar passes `0x..0abc`. -/
theorem odd_address_rebuilds_other_message :
    ∃ receipt call,
      { sampleReceipt with payouts := [⟨"0xabc", 1000⟩] }.sign (Primitives.marking [])
        (Vector.replicate 32 0) = some receipt ∧
      postSettle sampleConfig (settleReq receipt "0xabc" 1000).receive = some call ∧
      call.intentMessage.toBytes.toOption ≠ receipt.intentMessageBytes := by
  obtain ⟨message, _, made⟩ := { sampleReceipt with payouts := [⟨"0xabc", 1000⟩] }.sign_isSome
    (Primitives.marking []) (Vector.replicate 32 0) (by change 1 < 2 ^ 31; decide)
  have payouts : (([⟨"0xabc", 1000⟩] : List Payout).map receivedPayout).mapM newPayout |>.isSome := by
    decide +kernel
  have timestamp : (pureU64 (roundToDouble sampleReceipt.timestampMs.toNat)).isSome = true := by decide
  obtain ⟨call, built⟩ := postSettle_isSome sampleConfig
    { sampleReceipt with
      payouts := [⟨"0xabc", 1000⟩]
      coordinatorPubkey := (Primitives.marking []).verifyingKey (Vector.replicate 32 0)
      signature := signMessage (Primitives.marking []) (Vector.replicate 32 0) message }
    "0xabc" 1000 (by decide) (by decide) (by decide) (by decide) timestamp payouts
  refine ⟨_, call, made, built, ?_⟩
  rw [ne_eq, rebuilt_bytes_eq_iff made built]
  intro given
  obtain ⟨_, payouts⟩ := given
  have same : SameAddress "0xabc" := (payouts ⟨"0xabc", 1000⟩ (by simp)).1
  rcases same with zeros | ⟨even, _⟩
  · exact absurd (zeros 'a' (by decide)) (by decide)
  · exact absurd even (by decide)

end Sidecar
