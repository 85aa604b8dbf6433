import Pinaivu.Wire.Json
import Pinaivu.Wire.Text

namespace Wire

/-- What `HeaderValue::from_bytes` accepts: printable bytes, tabs and the upper half. -/
structure HeaderValue where
  bytes : List UInt8
  legal : ∀ b ∈ bytes, (32 ≤ b.toNat ∧ b.toNat ≠ 127) ∨ b.toNat = 9

/-- Names come in lower case; a name may come more than once. -/
structure HeaderMap where
  entries : List (String × HeaderValue)

def HeaderValue.visible (value : HeaderValue) : Bool := value.bytes.all fun b => b.toNat < 127

/-- `HeaderValue::to_str` refuses the upper half. -/
def HeaderValue.toStr (value : HeaderValue) : Option String :=
  if value.visible then some (String.ofList (latin1 value.bytes)) else none

def HeaderMap.get (headers : HeaderMap) (name : String) : Option HeaderValue :=
  (headers.entries.find? (·.1 = name)).map (·.2)

/-- Node joins the values of a repeated header and reads their bytes as Latin-1. -/
def HeaderMap.joined (headers : HeaderMap) (name : String) : Option String :=
  match headers.entries.filter (·.1 = name) with
  | [] => none
  | entries => some (", ".intercalate (entries.map fun entry => String.ofList (latin1 entry.2.bytes)))

structure ErrorReply where
  status : Nat
  error : String
  deriving DecidableEq, Repr

theorem utf8_ofList (text : List Char) : utf8 (String.ofList text) = text.flatMap String.utf8EncodeChar := by
  simp [utf8, List.utf8Encode]

theorem utf8EncodeChar_ascii {c : Char} (ascii : c.toNat < 128) :
    String.utf8EncodeChar c = [UInt8.ofNat c.toNat] := by
  have short : c.val.toNat ≤ 0x7f := Nat.le_of_lt_succ ascii
  simp only [String.utf8EncodeChar, if_pos short]
  rfl

theorem utf8_ascii {s : String} (ascii : ∀ c ∈ s.toList, c.toNat < 128) :
    utf8 s = s.toList.map fun c => UInt8.ofNat c.toNat := by
  have encoded : s.toList.flatMap String.utf8EncodeChar = s.toList.flatMap fun c => [UInt8.ofNat c.toNat] :=
    List.flatMap_congr fun c member => utf8EncodeChar_ascii (ascii c member)
  rw [← String.ofList_toList (s := s), utf8_ofList, String.ofList_toList, encoded]
  exact List.flatMap_pure_eq_map _ _

theorem latin1_toNat (b : UInt8) : (Char.ofNat b.toNat).toNat = b.toNat := by
  have bound := b.toNat_lt
  have valid : b.toNat.isValidChar := .inl (by omega)
  rw [Char.ofNat, dif_pos valid]
  rfl

theorem utf8_latin1 {bytes : List UInt8} (ascii : ∀ b ∈ bytes, b.toNat < 128) :
    utf8 (String.ofList (latin1 bytes)) = bytes := by
  have chars : ∀ c ∈ (String.ofList (latin1 bytes)).toList, c.toNat < 128 := by
    rw [String.toList_ofList]
    intro c member
    obtain ⟨b, inside, rfl⟩ := List.mem_map.mp member
    rw [latin1_toNat]
    exact ascii b inside
  rw [utf8_ascii chars, String.toList_ofList, latin1, List.map_map]
  have back : ((fun c : Char => UInt8.ofNat c.toNat) ∘ fun b : UInt8 => Char.ofNat b.toNat) = id := by
    funext b
    simp only [Function.comp, latin1_toNat, UInt8.ofNat_toNat, id]
  rw [back, List.map_id]

theorem trimmed_latin1 {bytes : List UInt8} (ascii : ∀ b ∈ bytes, b.toNat < 128) :
    trimmed (String.ofList (latin1 bytes)) = String.ofList (latin1 (trimBy isAsciiSpace bytes)) := by
  rw [trimmed, String.toList_ofList]
  exact congrArg String.ofList (trimBy_map fun b member => latin1_whitespace (ascii b member))

end Wire
