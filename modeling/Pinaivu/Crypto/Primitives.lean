import Mathlib.Data.Set.Basic

namespace Crypto

abbrev PublicKey := Vector UInt8 32
abbrev SignatureBytes := Vector UInt8 64
abbrev Digest := Vector UInt8 32

/-- A signature scheme over byte strings with a hash beside it. Nothing is assumed of the
    functions; each result names the properties below that it uses. -/
structure Primitives where
  SigningKey : Type
  verifyingKey : SigningKey → PublicKey
  sign : SigningKey → List UInt8 → SignatureBytes
  validKey : PublicKey → Bool
  verify : PublicKey → List UInt8 → SignatureBytes → Bool
  sha256 : List UInt8 → Digest

namespace Primitives

variable (C : Primitives)

/-- What an honest signer produces is accepted. -/
def Correct : Prop :=
  ∀ key message, C.validKey (C.verifyingKey key) = true ∧
    C.verify (C.verifyingKey key) message (C.sign key message) = true

/-- One ideal signing operation: its signature is accepted for no other message, under any key. -/
def Binds (key : C.SigningKey) (message : List UInt8) : Prop :=
  ∀ holder other, C.verify holder other (C.sign key message) = true → other = message

/-- Accepted signatures were made by the holder of the key, as recorded in `signed`. -/
def Unforgeable (signed : PublicKey → List UInt8 → Prop) : Prop :=
  ∀ holder message signature, C.verify holder message signature = true → signed holder message

def CollisionFree (messages : Set (List UInt8)) : Prop :=
  ∀ m ∈ messages, ∀ n ∈ messages, C.sha256 m = C.sha256 n → m = n

theorem CollisionFree.subset {C : Primitives} {small large : Set (List UInt8)}
    (free : C.CollisionFree large) (inside : small ⊆ large) : C.CollisionFree small :=
  fun m hm n hn same => free m (inside hm) n (inside hn) same

/-- A scheme whose signatures tell one marked message from every other. -/
def marking (marked : List UInt8) : Primitives where
  SigningKey := PublicKey
  verifyingKey := id
  sign _ message := Vector.replicate 64 (if message = marked then 1 else 0)
  validKey _ := true
  verify _ message signature :=
    signature = Vector.replicate 64 (if message = marked then 1 else 0)
  sha256 _ := Vector.replicate 32 0

theorem marking_correct (marked : List UInt8) : (marking marked).Correct := by
  intro key message
  exact ⟨rfl, by simp [marking]⟩

theorem marking_binds (marked : List UInt8) (key : PublicKey) : (marking marked).Binds key marked := by
  intro holder other accepted
  by_contra different
  simp [marking, different] at accepted

/-- A scheme that accepts exactly the messages in its log, each under the key it stands for. -/
def logged (log : List (PublicKey × List UInt8)) : Primitives where
  SigningKey := PublicKey
  verifyingKey := id
  sign _ _ := Vector.replicate 64 0
  validKey _ := true
  verify holder message _ := (holder, message) ∈ log
  sha256 _ := Vector.replicate 32 0

theorem logged_unforgeable (log : List (PublicKey × List UInt8)) :
    (logged log).Unforgeable fun holder message => (holder, message) ∈ log := by
  intro holder message signature accepted
  simpa [logged] using accepted

def summing : Primitives :=
  { marking [] with sha256 := fun message => Vector.replicate 32 (message.foldl (· + ·) 0) }

theorem summing_correct : summing.Correct := marking_correct []

theorem collisionFree_pair {C : Primitives} {a b : List UInt8} (apart : C.sha256 a ≠ C.sha256 b)
    {messages : Set (List UInt8)} (only : ∀ m ∈ messages, m = a ∨ m = b) : C.CollisionFree messages := by
  intro m left n right same
  rcases only m left with rfl | rfl <;> rcases only n right with rfl | rfl
  · rfl
  · exact absurd same apart
  · exact absurd same.symm apart
  · rfl

end Primitives

end Crypto
