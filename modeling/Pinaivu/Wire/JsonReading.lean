import Pinaivu.Wire.Json

namespace Wire

inductive JsonKind where
  | null | number | string | array | object
  deriving DecidableEq

def Json.kind : Json → JsonKind
  | .null => .null
  | .number _ => .number
  | .string _ => .string
  | .array _ => .array
  | .object _ => .object

def kindOfByte (b : UInt8) : Option JsonKind :=
  if isDigit b then some .number
  else if b = 110 then some .null
  else if b = 34 then some .string
  else if b = 91 then some .array
  else if b = 123 then some .object
  else none

theorem render_head (j : Json) : ∃ b rest, j.render = b :: rest ∧ kindOfByte b = some j.kind := by
  cases j with
  | null => exact ⟨110, [117, 108, 108], by rw [Json.render], by decide⟩
  | number n =>
    obtain ⟨b, rest, shape, digit⟩ := decimal_head n
    exact ⟨b, rest, by rw [Json.render, shape], by simp [kindOfByte, digit, Json.kind]⟩
  | string s => exact ⟨34, _, by rw [Json.render, renderString], rfl⟩
  | array xs =>
    cases xs with
    | nil => exact ⟨91, [93], by rw [Json.render], rfl⟩
    | cons x xs => exact ⟨91, _, by rw [Json.render], rfl⟩
  | object ms =>
    cases ms with
    | nil => exact ⟨123, [125], by rw [Json.render], rfl⟩
    | cons m ms => exact ⟨123, _, by rw [Json.render], rfl⟩

theorem render_same_kind {a b : Json} {s t : List UInt8} (same : a.render ++ s = b.render ++ t) :
    a.kind = b.kind := by
  obtain ⟨x, xs, left, kindA⟩ := render_head a
  obtain ⟨y, ys, right, kindB⟩ := render_head b
  rw [left, right, List.cons_append, List.cons_append, List.cons.injEq] at same
  rw [same.1, kindB] at kindA
  exact (Option.some.inj kindA).symm

theorem render_not_closing {a : Json} {s t : List UInt8} {b : UInt8} (closing : b = 93 ∨ b = 125) :
    a.render ++ s ≠ b :: t := by
  intro same
  obtain ⟨x, xs, shape, kind⟩ := render_head a
  rw [shape, List.cons_append, List.cons.injEq] at same
  have none : kindOfByte b = none := by rcases closing with rfl | rfl <;> decide
  rw [same.1, none] at kind
  cases kind

theorem renderMember_head (m : String × Json) : ∃ rest, renderMember m = 34 :: rest := by
  rcases m with ⟨key, value⟩
  exact ⟨_, by rw [renderMember, renderString, List.cons_append]⟩

theorem renderElements_stops (xs : List Json) (s : List UInt8) :
    Stops isDigit (renderElements xs ++ s) := by
  cases xs with
  | nil => rw [renderElements]; exact Stops.cons _ (by decide)
  | cons x xs => rw [renderElements]; exact Stops.cons _ (by decide)

theorem renderMembers_stops (ms : List (String × Json)) (s : List UInt8) :
    Stops isDigit (renderMembers ms ++ s) := by
  cases ms with
  | nil => rw [renderMembers]; exact Stops.cons _ (by decide)
  | cons m ms => rw [renderMembers]; exact Stops.cons _ (by decide)

mutual

theorem render_unambiguous (a b : Json) (s t : List UInt8) (hs : Stops isDigit s)
    (ht : Stops isDigit t) (same : a.render ++ s = b.render ++ t) : a = b ∧ s = t := by
  have kinds := render_same_kind same
  match a, b with
  | .null, .null =>
    simp only [Json.render, List.append_cancel_left_eq] at same
    exact ⟨rfl, same⟩
  | .number m, .number n =>
    simp only [Json.render] at same
    obtain ⟨rfl, rest⟩ := decimal_unambiguous m n s t hs ht same
    exact ⟨rfl, rest⟩
  | .string x, .string y =>
    simp only [Json.render] at same
    obtain ⟨rfl, rest⟩ := renderString_unambiguous x y s t trivial trivial same
    exact ⟨rfl, rest⟩
  | .array [], .array [] =>
    simp only [Json.render, List.append_cancel_left_eq] at same
    exact ⟨rfl, same⟩
  | .array [], .array (y :: ys) =>
    simp only [Json.render, List.cons_append, List.nil_append, List.append_assoc, List.cons.injEq,
      true_and] at same
    exact absurd same.symm (render_not_closing (.inl rfl))
  | .array (x :: xs), .array [] =>
    simp only [Json.render, List.cons_append, List.nil_append, List.append_assoc, List.cons.injEq,
      true_and] at same
    exact absurd same (render_not_closing (.inl rfl))
  | .array (x :: xs), .array (y :: ys) =>
    simp only [Json.render, List.cons_append, List.append_assoc, List.cons.injEq, true_and] at same
    obtain ⟨rfl, rest⟩ := render_unambiguous x y _ _ (renderElements_stops xs s)
      (renderElements_stops ys t) same
    obtain ⟨rfl, tail⟩ := renderElements_unambiguous xs ys s t rest
    exact ⟨rfl, tail⟩
  | .object [], .object [] =>
    simp only [Json.render, List.append_cancel_left_eq] at same
    exact ⟨rfl, same⟩
  | .object [], .object (n :: ns) =>
    obtain ⟨rest, shape⟩ := renderMember_head n
    simp [Json.render, shape] at same
  | .object (m :: ms), .object [] =>
    obtain ⟨rest, shape⟩ := renderMember_head m
    simp [Json.render, shape] at same
  | .object (m :: ms), .object (n :: ns) =>
    simp only [Json.render, List.cons_append, List.append_assoc, List.cons.injEq, true_and] at same
    obtain ⟨rfl, rest⟩ := renderMember_unambiguous m n _ _ (renderMembers_stops ms s)
      (renderMembers_stops ns t) same
    obtain ⟨rfl, tail⟩ := renderMembers_unambiguous ms ns s t rest
    exact ⟨rfl, tail⟩
  | .null, .number _ | .null, .string _ | .null, .array _ | .null, .object _
  | .number _, .null | .number _, .string _ | .number _, .array _ | .number _, .object _
  | .string _, .null | .string _, .number _ | .string _, .array _ | .string _, .object _
  | .array _, .null | .array _, .number _ | .array _, .string _ | .array _, .object _
  | .object _, .null | .object _, .number _ | .object _, .string _ | .object _, .array _ =>
    exact absurd kinds (by simp [Json.kind])

theorem renderElements_unambiguous (xs ys : List Json) (s t : List UInt8)
    (same : renderElements xs ++ s = renderElements ys ++ t) : xs = ys ∧ s = t := by
  match xs, ys with
  | [], [] =>
    simp only [renderElements, List.append_cancel_left_eq] at same
    exact ⟨rfl, same⟩
  | [], _ :: _ => simp [renderElements] at same
  | _ :: _, [] => simp [renderElements] at same
  | x :: xs, y :: ys =>
    simp only [renderElements, List.cons_append, List.append_assoc, List.cons.injEq, true_and] at same
    obtain ⟨rfl, rest⟩ := render_unambiguous x y _ _ (renderElements_stops xs s)
      (renderElements_stops ys t) same
    obtain ⟨rfl, tail⟩ := renderElements_unambiguous xs ys s t rest
    exact ⟨rfl, tail⟩

theorem renderMembers_unambiguous (ms ns : List (String × Json)) (s t : List UInt8)
    (same : renderMembers ms ++ s = renderMembers ns ++ t) : ms = ns ∧ s = t := by
  match ms, ns with
  | [], [] =>
    simp only [renderMembers, List.append_cancel_left_eq] at same
    exact ⟨rfl, same⟩
  | [], _ :: _ => simp [renderMembers] at same
  | _ :: _, [] => simp [renderMembers] at same
  | m :: ms, n :: ns =>
    simp only [renderMembers, List.cons_append, List.append_assoc, List.cons.injEq, true_and] at same
    obtain ⟨rfl, rest⟩ := renderMember_unambiguous m n _ _ (renderMembers_stops ms s)
      (renderMembers_stops ns t) same
    obtain ⟨rfl, tail⟩ := renderMembers_unambiguous ms ns s t rest
    exact ⟨rfl, tail⟩

theorem renderMember_unambiguous (m n : String × Json) (s t : List UInt8) (hs : Stops isDigit s)
    (ht : Stops isDigit t) (same : renderMember m ++ s = renderMember n ++ t) : m = n ∧ s = t := by
  match m, n with
  | (key, value), (key', value') =>
    simp only [renderMember, List.append_assoc, List.cons_append] at same
    obtain ⟨rfl, rest⟩ := renderString_unambiguous key key' _ _ trivial trivial same
    simp only [List.cons.injEq, true_and] at rest
    obtain ⟨rfl, tail⟩ := render_unambiguous value value' s t hs ht rest
    exact ⟨rfl, tail⟩

end

theorem Json.render_injective : Function.Injective Json.render := by
  intro a b same
  exact (render_unambiguous a b [] [] (Stops.nil _) (Stops.nil _) (by rw [same])).1

end Wire
