import Mathlib.Logic.Function.Basic
import Pinaivu.Protocol.Messages
import Pinaivu.Protocol.ReceiptJson

namespace Coordinator

open Protocol Wire

structure ChatMessage where
  role : String
  content : String
  deriving DecidableEq

/-- The third-party functions the coordinator calls: serde_json on its own types, libp2p's peer id
    parser, base64, and the enclave's decryption of a client's prompt. -/
structure Externals where
  bidFromSlice : List UInt8 → Option InferenceBid
  capabilitiesFromSlice : List UInt8 → Option NodeCapabilities
  messagesFromSlice : List UInt8 → Option (List ChatMessage)
  receiptToString : RoutingReceipt → String
  receiptFromStr : String → Except String RoutingReceipt
  receiptToValue : RoutingReceipt → Json
  receiptFromValue : Json → Except String RoutingReceipt
  parsePeerId : String → Except String PeerId
  decodeBase64 : String → Option (List UInt8)
  decrypt : Vector UInt8 32 → List UInt8 → List UInt8 → Option (List UInt8)

/-- serde_json reads back every receipt it has written. -/
structure Externals.RoundTrip (X : Externals) : Prop where
  text : ∀ receipt, X.receiptFromStr (X.receiptToString receipt) = .ok receipt
  value : ∀ receipt, X.receiptFromValue (X.receiptToValue receipt) = .ok receipt

def asciiText (bytes : List UInt8) : String := String.ofList (bytes.map fun b => Char.ofNat b.toNat)

theorem asciiText_injective : Function.Injective asciiText := by
  have value (b : UInt8) : (Char.ofNat b.toNat).toNat = b.toNat := by
    have bound := b.toNat_lt
    have valid : b.toNat.isValidChar := .inl (by omega)
    rw [Char.ofNat, dif_pos valid]
    rfl
  have chars : Function.Injective fun b : UInt8 => Char.ofNat b.toNat := by
    intro x y same
    have values := congrArg Char.toNat same
    rw [value, value] at values
    exact UInt8.toNat_inj.mp values
  intro a b same
  have lists := congrArg String.toList same
  simp only [asciiText, String.toList_ofList] at lists
  exact List.map_injective_iff.mpr chars lists

/-- serde_json with its printer written out: reading inverts it and fails on every other text. -/
noncomputable def Externals.serde (bidFromSlice : List UInt8 → Option InferenceBid)
    (parsePeerId : String → Except String PeerId) : Externals where
  bidFromSlice := bidFromSlice
  capabilitiesFromSlice _ := none
  messagesFromSlice _ := none
  receiptToString receipt := asciiText receipt.json.render
  receiptFromStr text :=
    (Function.partialInv (fun receipt : RoutingReceipt => asciiText receipt.json.render) text).elim
      (.error "expected value") .ok
  receiptToValue := RoutingReceipt.json
  receiptFromValue value := (Function.partialInv RoutingReceipt.json value).elim (.error "missing field") .ok
  parsePeerId := parsePeerId
  decodeBase64 _ := none
  decrypt _ _ _ := none

theorem Externals.serde_roundTrip (bidFromSlice : List UInt8 → Option InferenceBid)
    (parsePeerId : String → Except String PeerId) : (Externals.serde bidFromSlice parsePeerId).RoundTrip := by
  have printed : Function.Injective fun receipt : RoutingReceipt => asciiText receipt.json.render :=
    asciiText_injective.comp (Json.render_injective.comp RoutingReceipt.json_injective)
  constructor
  · intro receipt
    simp only [Externals.serde, Function.partialInv_left printed, Option.elim_some]
  · intro receipt
    simp only [Externals.serde, Function.partialInv_left RoutingReceipt.json_injective, Option.elim_some]

end Coordinator
