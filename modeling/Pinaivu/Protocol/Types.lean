import Pinaivu.Wire.JsonReading

namespace Protocol

open Wire

structure Uuid where
  bytes : Vector UInt8 16
  deriving DecidableEq, Repr

abbrev RequestId := Uuid
abbrev SessionId := Uuid

structure NodePeerId where
  value : String
  deriving DecidableEq, Repr

structure NanoX where
  value : UInt64
  deriving DecidableEq, Repr

def Uuid.hexRange (u : Uuid) (first last : Nat) : List Char :=
  hexEncode ((u.bytes.toList.take last).drop first)

/-- The hyphenated lower-case form that `Display` and serde both use. -/
def Uuid.text (u : Uuid) : List Char :=
  u.hexRange 0 4 ++ '-' :: u.hexRange 4 6 ++ '-' :: u.hexRange 6 8 ++
    '-' :: u.hexRange 8 10 ++ '-' :: u.hexRange 10 16

def Uuid.toString (u : Uuid) : String := String.ofList u.text

def jsonUuid (u : Uuid) : Json := .string u.toString

def jsonBytes (bytes : List UInt8) : Json := .array (bytes.map fun b => .number b.toNat)

def jsonOption {α : Type} (encode : α → Json) : Option α → Json
  | none => .null
  | some a => encode a

theorem hexDigit_ne_dash : ∀ d < 16, hexDigit d ≠ '-' := by decide

theorem hexEncode_filter_dash (bytes : List UInt8) :
    (hexEncode bytes).filter (· ≠ '-') = hexEncode bytes := by
  rw [List.filter_eq_self]
  intro c member
  simp only [hexEncode, List.mem_flatMap, hexByte, List.mem_cons, List.not_mem_nil, or_false] at member
  rcases member with ⟨b, _, rfl | rfl⟩
  · have bound := b.toNat_lt
    simpa using hexDigit_ne_dash (b.toNat / 16) (by omega)
  · simpa using hexDigit_ne_dash (b.toNat % 16) (by omega)

theorem hexEncode_append (a b : List UInt8) : hexEncode (a ++ b) = hexEncode a ++ hexEncode b := by
  simp [hexEncode]

theorem take_drop_join {α : Type} (xs : List α) {first middle last : Nat} (h : first ≤ middle)
    (k : middle ≤ last) :
    (xs.take middle).drop first ++ (xs.take last).drop middle = (xs.take last).drop first := by
  have split : (xs.take last).drop first =
      ((xs.take last).drop first).take (middle - first) ++
        ((xs.take last).drop first).drop (middle - first) := (List.take_append_drop _ _).symm
  rw [split, List.drop_drop, List.take_drop, List.take_take]
  congr 2
  · congr 1
    omega
  · omega

theorem Uuid.text_without_dashes (u : Uuid) :
    u.text.filter (· ≠ '-') = hexEncode u.bytes.toList := by
  have all : u.bytes.toList.take 16 = u.bytes.toList := List.take_of_length_le (by simp)
  have dash : ((· ≠ '-') : Char → Bool) '-' = false := by decide
  simp only [Uuid.text, Uuid.hexRange, List.filter_append, List.filter_cons, hexEncode_filter_dash]
  simp only [ne_eq, not_true_eq_false, decide_false, Bool.false_eq_true, ↓reduceIte]
  simp only [← hexEncode_append]
  rw [take_drop_join _ (by omega) (by omega), take_drop_join _ (by omega) (by omega),
    take_drop_join _ (by omega) (by omega), take_drop_join _ (by omega) (by omega), all, List.drop_zero]

theorem Uuid.toString_injective : Function.Injective Uuid.toString := by
  intro u v same
  have texts : u.text = v.text := by
    have lists := congrArg String.toList same
    simpa only [Uuid.toString, String.toList_ofList] using lists
  have hex := congrArg (List.filter (· ≠ '-')) texts
  rw [u.text_without_dashes, v.text_without_dashes] at hex
  have bytes := Vector.toList_inj.mp (hexEncode_injective hex)
  cases u
  cases v
  simpa using bytes

@[simp] theorem jsonUuid_inj (u v : Uuid) : jsonUuid u = jsonUuid v ↔ u = v := by
  simp only [jsonUuid, Json.string.injEq]
  exact Uuid.toString_injective.eq_iff

@[simp] theorem jsonBytes_inj (a b : List UInt8) : jsonBytes a = jsonBytes b ↔ a = b := by
  have numbers : Function.Injective fun b : UInt8 => Json.number b.toNat := by
    intro x y same
    exact UInt8.toNat_inj.mp (Json.number.inj same)
  simp only [jsonBytes, Json.array.injEq]
  exact (List.map_injective_iff.mpr numbers).eq_iff

theorem jsonOption_inj {α : Type} {encode : α → Json} (injective : Function.Injective encode)
    (present : ∀ a, encode a ≠ .null) (x y : Option α) :
    jsonOption encode x = jsonOption encode y ↔ x = y := by
  cases x with
  | none =>
    cases y with
    | none => simp
    | some b => simpa [jsonOption] using (present b).symm
  | some a =>
    cases y with
    | none => simpa [jsonOption] using present a
    | some b => simpa [jsonOption] using injective.eq_iff

end Protocol
