import Pinaivu.Wire.Decimal
import Pinaivu.Wire.Hex

namespace Wire

/-- The values serde_json writes for structs of strings, unsigned integers, arrays and options. -/
inductive Json where
  | null
  | number (n : Nat)
  | string (s : String)
  | array (elements : List Json)
  | object (members : List (String × Json))

def hexDigitByte (d : Nat) : UInt8 := UInt8.ofNat (hexDigit d).toNat

/-- serde_json's `ESCAPE` table, applied to each UTF-8 byte. -/
def escapeByte (b : UInt8) : List UInt8 :=
  if b = 34 then [92, 34]
  else if b = 92 then [92, 92]
  else if b = 8 then [92, 98]
  else if b = 9 then [92, 116]
  else if b = 10 then [92, 110]
  else if b = 12 then [92, 102]
  else if b = 13 then [92, 114]
  else if b < 32 then [92, 117, 48, 48, hexDigitByte (b.toNat / 16), hexDigitByte (b.toNat % 16)]
  else [b]

def utf8 (s : String) : List UInt8 := s.toByteArray.data.toList

def renderString (s : String) : List UInt8 := 34 :: ((utf8 s).flatMap escapeByte ++ [34])

mutual

def Json.render : Json → List UInt8
  | .null => [110, 117, 108, 108]
  | .number n => decimal n
  | .string s => renderString s
  | .array [] => [91, 93]
  | .array (x :: xs) => 91 :: (x.render ++ renderElements xs)
  | .object [] => [123, 125]
  | .object (m :: ms) => 123 :: (renderMember m ++ renderMembers ms)

def renderElements : List Json → List UInt8
  | [] => [93]
  | x :: xs => 44 :: (x.render ++ renderElements xs)

def renderMembers : List (String × Json) → List UInt8
  | [] => [125]
  | m :: ms => 44 :: (renderMember m ++ renderMembers ms)

def renderMember : String × Json → List UInt8
  | (key, value) => renderString key ++ 58 :: value.render

end

theorem utf8_injective : Function.Injective utf8 := by
  intro s t same
  apply String.toByteArray_inj.mp
  exact ByteArray.ext (Array.toList_inj.mp same)

theorem control_digits_inj : ∀ b c : UInt8, b < 32 → c < 32 →
    hexDigitByte (b.toNat / 16) = hexDigitByte (c.toNat / 16) →
    hexDigitByte (b.toNat % 16) = hexDigitByte (c.toNat % 16) → b = c := by
  have digits : ∀ m < 16, ∀ n < 16, hexDigitByte m = hexDigitByte n → m = n := by decide
  intro b c hb hc high low
  have hb' : b.toNat < 256 := b.toNat_lt
  have hc' : c.toNat < 256 := c.toNat_lt
  have quotients := digits _ (by omega) _ (by omega) high
  have remainders := digits _ (by omega) _ (by omega) low
  apply UInt8.toNat_inj.mp
  omega

def shortEscapes : List (UInt8 × UInt8) :=
  [(34, 34), (92, 92), (8, 98), (9, 116), (10, 110), (12, 102), (13, 114)]

theorem escapeByte_cases (b : UInt8) :
    (∃ code, (b, code) ∈ shortEscapes ∧ escapeByte b = [92, code]) ∨
    (b < 32 ∧ escapeByte b =
      [92, 117, 48, 48, hexDigitByte (b.toNat / 16), hexDigitByte (b.toNat % 16)]) ∨
    (b ≠ 34 ∧ b ≠ 92 ∧ escapeByte b = [b]) := by
  unfold escapeByte
  split
  · exact .inl ⟨34, by subst b; decide, rfl⟩
  split
  · exact .inl ⟨92, by subst b; decide, rfl⟩
  split
  · exact .inl ⟨98, by subst b; decide, rfl⟩
  split
  · exact .inl ⟨116, by subst b; decide, rfl⟩
  split
  · exact .inl ⟨110, by subst b; decide, rfl⟩
  split
  · exact .inl ⟨102, by subst b; decide, rfl⟩
  split
  · exact .inl ⟨114, by subst b; decide, rfl⟩
  split
  · rename_i small
    exact .inr (.inl ⟨small, rfl⟩)
  · rename_i notQuote notBackslash _ _ _ _ _ _
    exact .inr (.inr ⟨notQuote, notBackslash, rfl⟩)

theorem shortEscapes_inj : ∀ p ∈ shortEscapes, ∀ q ∈ shortEscapes, p.2 = q.2 → p = q := by
  simp [shortEscapes]

theorem shortEscapes_not_u : ∀ p ∈ shortEscapes, p.2 ≠ 117 := by
  simp [shortEscapes]

theorem escapeByte_unambiguous : Unambiguous escapeByte Anything := by
  intro b c s t _ _ same
  obtain ⟨x, hx, ex⟩ | ⟨hb, ex⟩ | ⟨_, hb, ex⟩ := escapeByte_cases b <;>
    obtain ⟨y, hy, ey⟩ | ⟨hc, ey⟩ | ⟨_, hc, ey⟩ := escapeByte_cases c <;>
    rw [ex, ey] at same <;>
    simp only [List.cons_append, List.nil_append, List.cons.injEq, true_and] at same
  · have pair := shortEscapes_inj _ hx _ hy same.1
    exact ⟨congrArg Prod.fst pair, same.2⟩
  · exact absurd same.1 (shortEscapes_not_u _ hx)
  · exact absurd same.1.symm hc
  · exact absurd same.1.symm (shortEscapes_not_u _ hy)
  · exact ⟨control_digits_inj b c hb hc same.1 same.2.1, same.2.2⟩
  · exact absurd same.1.symm hc
  · exact absurd same.1 hb
  · exact absurd same.1 hb
  · exact same

theorem escapeByte_head (b : UInt8) : ∃ x rest, escapeByte b = x :: rest ∧ x ≠ 34 := by
  obtain ⟨code, _, shape⟩ | ⟨_, shape⟩ | ⟨notQuote, _, shape⟩ := escapeByte_cases b
  · exact ⟨92, [code], shape, by decide⟩
  · exact ⟨92, _, shape, by decide⟩
  · exact ⟨b, [], shape, notQuote⟩

/-- The closing quote is the first unescaped one, so the text between the quotes is determined. -/
theorem escaped_text_unambiguous : ∀ xs ys s t : List UInt8,
    xs.flatMap escapeByte ++ 34 :: s = ys.flatMap escapeByte ++ 34 :: t → xs = ys ∧ s = t
  | [], [], s, t, same => by simpa using same
  | [], y :: ys, s, t, same => by
    obtain ⟨x, rest, shape, notQuote⟩ := escapeByte_head y
    simp only [List.flatMap_nil, List.flatMap_cons, shape, List.nil_append, List.cons_append,
      List.cons.injEq] at same
    exact absurd same.1.symm notQuote
  | x :: xs, [], s, t, same => by
    obtain ⟨y, rest, shape, notQuote⟩ := escapeByte_head x
    simp only [List.flatMap_nil, List.flatMap_cons, shape, List.nil_append, List.cons_append,
      List.cons.injEq] at same
    exact absurd same.1 notQuote
  | x :: xs, y :: ys, s, t, same => by
    simp only [List.flatMap_cons, List.append_assoc] at same
    obtain ⟨rfl, rest⟩ := escapeByte_unambiguous x y _ _ trivial trivial same
    obtain ⟨rfl, tail⟩ := escaped_text_unambiguous xs ys s t rest
    exact ⟨rfl, tail⟩

theorem renderString_unambiguous : Unambiguous renderString Anything := by
  intro a b s t _ _ same
  simp only [renderString, List.cons_append, List.append_assoc, List.nil_append, List.cons.injEq,
    true_and] at same
  obtain ⟨texts, rest⟩ := escaped_text_unambiguous _ _ s t same
  exact ⟨utf8_injective texts, rest⟩

end Wire
