import Pinaivu.Wire.Http

namespace Wire

def splitInclusive : List UInt8 → List (List UInt8)
  | [] => []
  | b :: rest =>
    if b = 10 then [b] :: splitInclusive rest
    else
      match splitInclusive rest with
      | [] => [[b]]
      | line :: lines => (b :: line) :: lines

def decodeUtf8 (bytes : List UInt8) : Option String := String.fromUTF8? ⟨bytes.toArray⟩

def popLineEnd (text : List Char) : List Char :=
  if text.getLast? = some '\n' then
    if text.dropLast.getLast? = some '\r' then text.dropLast.dropLast else text.dropLast
  else text

/-- `BufRead::lines`; `none` is the error for bytes that are no UTF-8. -/
def bufLines (bytes : List UInt8) : List (Option (List Char)) :=
  (splitInclusive bytes).map fun line => (decodeUtf8 line).map fun text => popLineEnd text.toList

def splitOnce (mark : Char) : List Char → Option (List Char × List Char)
  | [] => none
  | c :: rest => if c = mark then some ([], rest) else (splitOnce mark rest).map fun parts => (c :: parts.1, parts.2)

theorem decodeUtf8_utf8 (s : String) : decodeUtf8 (utf8 s) = some s := by
  unfold decodeUtf8 utf8 String.fromUTF8?
  rw [Array.toArray_toList, dif_pos s.isValidUTF8]
  rfl

theorem newline_of_mem_utf8EncodeChar {c : Char} (member : (10 : UInt8) ∈ String.utf8EncodeChar c) : c = '\n' := by
  have low {n : Nat} (same : (10 : UInt8) = UInt8.ofNat n) : n % 256 = 10 := by
    rw [← UInt8.toNat_inj, UInt8.toNat_ofNat'] at same
    exact same.symm
  apply Char.toNat_inj.mp
  change c.val.toNat = 10
  simp only [String.utf8EncodeChar] at member
  split at member
  · have value := low (List.mem_singleton.mp member)
    omega
  split at member
  · simp only [List.mem_cons, List.not_mem_nil, or_false] at member
    rcases member with first | second
    · have value := low first
      omega
    · have value := low second
      omega
  split at member
  · simp only [List.mem_cons, List.not_mem_nil, or_false] at member
    rcases member with first | second | third
    · have value := low first
      omega
    · have value := low second
      omega
    · have value := low third
      omega
  · simp only [List.mem_cons, List.not_mem_nil, or_false] at member
    rcases member with first | second | third | fourth
    · have value := low first
      omega
    · have value := low second
      omega
    · have value := low third
      omega
    · have value := low fourth
      omega

theorem newline_not_mem_utf8 {text : List Char} (oneLine : '\n' ∉ text) :
    (10 : UInt8) ∉ utf8 (String.ofList text) := by
  rw [utf8_ofList, List.mem_flatMap]
  intro found
  obtain ⟨c, member, byte⟩ := found
  rw [newline_of_mem_utf8EncodeChar byte] at member
  exact oneLine member

theorem splitInclusive_line {line : List UInt8} (inside : (10 : UInt8) ∉ line) (rest : List UInt8) :
    splitInclusive (line ++ 10 :: rest) = (line ++ [10]) :: splitInclusive rest := by
  induction line with
  | nil => rfl
  | cons b line ih =>
    rw [List.mem_cons, not_or] at inside
    rw [List.cons_append, splitInclusive, if_neg (Ne.symm inside.1), ih inside.2]
    rfl

theorem splitInclusive_last {line : List UInt8} (inside : (10 : UInt8) ∉ line) (nonempty : line ≠ []) :
    splitInclusive line = [line] := by
  induction line with
  | nil => exact absurd rfl nonempty
  | cons b line ih =>
    rw [List.mem_cons, not_or] at inside
    rw [splitInclusive, if_neg (Ne.symm inside.1)]
    cases line with
    | nil => rfl
    | cons c line => rw [ih inside.2 (List.cons_ne_nil c line)]

theorem bufLines_line {text : List Char} (oneLine : '\n' ∉ text) (rest : List UInt8) :
    bufLines (utf8 (String.ofList (text ++ ['\n'])) ++ rest) =
      some (popLineEnd (text ++ ['\n'])) :: bufLines rest := by
  have bytes : utf8 (String.ofList (text ++ ['\n'])) = utf8 (String.ofList text) ++ [10] := by
    rw [utf8_ofList, utf8_ofList, List.flatMap_append]
    rfl
  have decoded := decodeUtf8_utf8 (String.ofList (text ++ ['\n']))
  unfold bufLines
  rw [bytes, List.append_assoc]
  change (splitInclusive (utf8 (String.ofList text) ++ 10 :: rest)).map _ = _
  rw [splitInclusive_line (newline_not_mem_utf8 oneLine), List.map_cons, ← bytes, decoded, Option.map_some,
    String.toList_ofList]

theorem utf8_ne_nil {text : List Char} (nonempty : text ≠ []) : utf8 (String.ofList text) ≠ [] := by
  obtain ⟨c, rest, shape⟩ := List.exists_cons_of_ne_nil nonempty
  rw [utf8_ofList, shape, List.flatMap_cons]
  exact List.append_ne_nil_of_left_ne_nil String.utf8EncodeChar_ne_nil _

theorem bufLines_last {text : List Char} (oneLine : '\n' ∉ text) (nonempty : text ≠ []) :
    bufLines (utf8 (String.ofList text)) = [some (popLineEnd text)] := by
  unfold bufLines
  rw [splitInclusive_last (newline_not_mem_utf8 oneLine) (utf8_ne_nil nonempty), List.map_cons, List.map_nil,
    decodeUtf8_utf8, Option.map_some, String.toList_ofList]

theorem trim_popLineEnd (text : List Char) : trim (popLineEnd text) = trim text := by
  change trimBy isWhitespace (popLineEnd text) = trimBy isWhitespace text
  have popped {front : List Char} {c : Char} (last : front.getLast? = some c) (blank : isWhitespace c = true) :
      trimBy isWhitespace front.dropLast = trimBy isWhitespace front := by
    obtain ⟨rest, shape⟩ := List.getLast?_eq_some_iff.mp last
    rw [shape, List.dropLast_concat, trimBy_snoc blank]
  unfold popLineEnd
  split
  · rename_i feed
    split
    · rename_i carriage
      rw [popped carriage (by decide), popped feed (by decide)]
    · exact popped feed (by decide)
  · rfl

theorem splitOnce_append {mark : Char} {before : List Char} (absent : mark ∉ before) (rest : List Char) :
    splitOnce mark (before ++ mark :: rest) = some (before, rest) := by
  induction before with
  | nil => simp [splitOnce]
  | cons c before ih =>
    rw [List.mem_cons, not_or] at absent
    rw [List.cons_append, splitOnce, if_neg (Ne.symm absent.1), ih absent.2]
    rfl

end Wire
