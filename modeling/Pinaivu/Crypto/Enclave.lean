import Pinaivu.Crypto.Primitives
import Pinaivu.Wire.Json

namespace Crypto

open Wire

abbrev X25519Key := Vector UInt8 32
abbrev AesKey := Vector UInt8 32

/-- SHA-512, X25519 and AES-256-GCM, beside the signatures. Encryption fails on an overlong plaintext only. -/
structure Exchange (C : Primitives) where
  toBytes : C.SigningKey → Vector UInt8 32
  sha512 : List UInt8 → Vector UInt8 64
  publicKey : X25519Key → X25519Key
  diffieHellman : X25519Key → X25519Key → Vector UInt8 32
  encrypt : AesKey → List UInt8 → List UInt8 → Option (List UInt8)
  decrypt : AesKey → List UInt8 → List UInt8 → Option (List UInt8)

variable {C : Primitives} (E : Exchange C)

structure Exchange.Correct : Prop where
  agree : ∀ a b, E.diffieHellman a (E.publicKey b) = E.diffieHellman b (E.publicKey a)
  opens : ∀ key nonce plaintext ciphertext, nonce.length = 12 → E.encrypt key nonce plaintext = some ciphertext →
    E.decrypt key nonce ciphertext = some plaintext

def ed25519SeedToX25519 (seed : Vector UInt8 32) : X25519Key :=
  Vector.ofFn fun i : Fin 32 => (E.sha512 seed.toList)[i.val]

/-- One seed stands behind both secrets. -/
structure EnclaveKeyPair where
  signingKey : C.SigningKey
  x25519Secret : X25519Key
  derived : x25519Secret = ed25519SeedToX25519 E (E.toBytes signingKey)

namespace EnclaveKeyPair

variable {E}

def generate (signingKey : C.SigningKey) : EnclaveKeyPair E where
  signingKey := signingKey
  x25519Secret := ed25519SeedToX25519 E (E.toBytes signingKey)
  derived := rfl

def publicKeyBytes (pair : EnclaveKeyPair E) : PublicKey := C.verifyingKey pair.signingKey

def x25519PublicKey (pair : EnclaveKeyPair E) : X25519Key := E.publicKey pair.x25519Secret

def ecdh (pair : EnclaveKeyPair E) (clientPub : X25519Key) : Vector UInt8 32 :=
  E.diffieHellman pair.x25519Secret clientPub

end EnclaveKeyPair

def deriveAesKey (C : Primitives) (sharedSecret : Vector UInt8 32) : AesKey :=
  C.sha256 (utf8 "pinaivu-aes-key-v1" ++ sharedSecret.toList)

def Exchange.prefixing (toBytes : C.SigningKey → Vector UInt8 32) : Exchange C where
  toBytes := toBytes
  sha512 bytes := Vector.ofFn fun i => bytes.getD i.val 0
  publicKey := id
  diffieHellman a b := Vector.zipWith (· + ·) a b
  encrypt key _ plaintext := some (key.toList ++ plaintext)
  decrypt key _ ciphertext := if ciphertext.take 32 = key.toList then some (ciphertext.drop 32) else none

theorem Exchange.prefixing_correct (toBytes : C.SigningKey → Vector UInt8 32) : (Exchange.prefixing toBytes).Correct := by
  constructor
  · intro a b
    ext i bound
    simp only [Exchange.prefixing, id, Vector.getElem_zipWith]
    rw [UInt8.add_comm]
  · intro key nonce plaintext ciphertext _ sealed
    cases sealed
    have width : key.toList.length = 32 := Vector.length_toList
    simp only [Exchange.prefixing]
    rw [List.take_left' width, List.drop_left' width, if_pos rfl]

end Crypto
