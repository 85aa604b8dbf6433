import Pinaivu.Crypto.Primitives

namespace Protocol

open Crypto

inductive VerifyError where
  | invalidPublicKey
  | invalidSignatureBytes
  | signatureMismatch
  deriving DecidableEq, Repr

/-- `Signature::from_slice`: exactly 64 bytes. -/
def signatureFromSlice (bytes : List UInt8) : Option SignatureBytes :=
  if width : bytes.length = 64 then some ⟨bytes.toArray, by simpa using width⟩ else none

def signMessage (C : Primitives) (key : C.SigningKey) (message : List UInt8) : List UInt8 :=
  (C.sign key message).toList

/-- The three checks every `verify` method makes, in their order. -/
def verifyMessage (C : Primitives) (key : PublicKey) (signature message : List UInt8) :
    Except VerifyError Unit :=
  if C.validKey key then
    match signatureFromSlice signature with
    | none => .error .invalidSignatureBytes
    | some parsed => if C.verify key message parsed then .ok () else .error .signatureMismatch
  else .error .invalidPublicKey

theorem signatureFromSlice_toList (signature : SignatureBytes) :
    signatureFromSlice signature.toList = some signature := by
  simp [signatureFromSlice, Vector.toList]

theorem verifyMessage_ok {C : Primitives} {key : PublicKey} {signature message : List UInt8}
    (accepted : verifyMessage C key signature message = .ok ()) :
    ∃ parsed, signatureFromSlice signature = some parsed ∧ C.verify key message parsed = true := by
  unfold verifyMessage at accepted
  split at accepted
  · cases parse : signatureFromSlice signature with
    | none => simp [parse] at accepted
    | some parsed =>
      refine ⟨parsed, rfl, ?_⟩
      by_contra rejected
      simp [parse, rejected] at accepted
  · cases accepted

theorem verifyMessage_signed {C : Primitives} (correct : C.Correct) (key : C.SigningKey)
    (message : List UInt8) :
    verifyMessage C (C.verifyingKey key) (signMessage C key message) message = .ok () := by
  obtain ⟨valid, accepted⟩ := correct key message
  simp [verifyMessage, signMessage, valid, signatureFromSlice_toList, accepted]

theorem verifyMessage_holder {C : Primitives} {signed : PublicKey → List UInt8 → Prop}
    (ideal : C.Unforgeable signed) {holder : PublicKey} {signature message : List UInt8}
    (accepted : verifyMessage C holder signature message = .ok ()) : signed holder message := by
  obtain ⟨parsed, _, verified⟩ := verifyMessage_ok accepted
  exact ideal holder message parsed verified

theorem verifyMessage_logged {log : List (PublicKey × List UInt8)} {holder : PublicKey}
    {message : List UInt8} (member : (holder, message) ∈ log) (signature : SignatureBytes) :
    verifyMessage (Primitives.logged log) holder signature.toList message = .ok () := by
  simp [verifyMessage, signatureFromSlice_toList, Primitives.logged, member]

theorem verifyMessage_binds {C : Primitives} {key : C.SigningKey} {message other : List UInt8}
    {holder : PublicKey} (binds : C.Binds key message)
    (accepted : verifyMessage C holder (signMessage C key message) other = .ok ()) :
    other = message := by
  obtain ⟨parsed, parse, verified⟩ := verifyMessage_ok accepted
  rw [signMessage, signatureFromSlice_toList, Option.some.injEq] at parse
  subst parsed
  exact binds holder other verified

/-- A signed value whose fields are its message and its signature: another value that carries the
    same signature verifies only if it is the same value. -/
theorem verifyMessage_iff_untouched {α : Type} {C : Primitives} (correct : C.Correct)
    (key : C.SigningKey) (holder : α → PublicKey) (signature message : α → List UInt8)
    (determined : ∀ a b, signature a = signature b → message a = message b → a = b)
    (signed other : α) (named : holder signed = C.verifyingKey key)
    (made : signature signed = signMessage C key (message signed))
    (binds : C.Binds key (message signed)) (carried : signature other = signature signed) :
    verifyMessage C (holder other) (signature other) (message other) = .ok () ↔ other = signed := by
  constructor
  · intro accepted
    rw [carried, made] at accepted
    exact determined other signed carried (verifyMessage_binds binds accepted)
  · intro same
    rw [same, named, made]
    exact verifyMessage_signed correct key (message signed)

end Protocol
