import Mathlib.Data.List.Basic

namespace Wire

variable {α β γ : Type}

/-- A reader of `encode a ++ rest` recovers both parts, for every `rest` that may follow. -/
def Unambiguous (encode : α → List β) (follows : List β → Prop) : Prop :=
  ∀ a b s t, follows s → follows t → encode a ++ s = encode b ++ t → a = b ∧ s = t

def Anything (_ : List β) : Prop := True

theorem Unambiguous.injective {encode : α → List β} {follows : List β → Prop}
    (reads : Unambiguous encode follows) (ends : follows []) : Function.Injective encode := by
  intro a b same
  exact (reads a b [] [] ends ends (by rw [same])).1

theorem Unambiguous.comp {encode : β → List γ} {follows : List γ → Prop} {f : α → β}
    (reads : Unambiguous encode follows) (injective : Function.Injective f) :
    Unambiguous (fun a => encode (f a)) follows := by
  intro a b s t hs ht same
  obtain ⟨equal, rest⟩ := reads (f a) (f b) s t hs ht same
  exact ⟨injective equal, rest⟩

theorem unambiguous_of_width {encode : α → List β} (width : Nat)
    (fixed : ∀ a, (encode a).length = width) (injective : Function.Injective encode) :
    Unambiguous encode Anything := by
  intro a b s t _ _ same
  obtain ⟨left, right⟩ := List.append_inj same (by rw [fixed, fixed])
  exact ⟨injective left, right⟩

theorem Unambiguous.append {δ : Type} {first : α → List β} {second : δ → List β}
    {inner outer : List β → Prop} (left : Unambiguous first inner) (right : Unambiguous second outer)
    (meets : ∀ d s, outer s → inner (second d ++ s)) :
    Unambiguous (fun pair : α × δ => first pair.1 ++ second pair.2) outer := by
  intro given found s t hs ht same
  obtain ⟨a, c⟩ := given
  obtain ⟨b, d⟩ := found
  simp only [List.append_assoc] at same
  obtain ⟨rfl, rest⟩ := left a b _ _ (meets c s hs) (meets d t ht) same
  obtain ⟨rfl, tail⟩ := right c d s t hs ht rest
  exact ⟨rfl, tail⟩

theorem Unambiguous.flatMap {encode : α → List β} (reads : Unambiguous encode Anything) :
    ∀ xs ys : List α, xs.length = ys.length → ∀ s t,
      xs.flatMap encode ++ s = ys.flatMap encode ++ t → xs = ys ∧ s = t
  | [], [], _, s, t, same => ⟨rfl, by simpa using same⟩
  | x :: xs, y :: ys, count, s, t, same => by
    simp only [List.flatMap_cons, List.append_assoc] at same
    obtain ⟨rfl, rest⟩ := reads x y _ _ trivial trivial same
    obtain ⟨rfl, tail⟩ := reads.flatMap xs ys (by simpa using count) s t rest
    exact ⟨rfl, tail⟩

def Stops (p : β → Bool) (rest : List β) : Prop := ∀ x ∈ rest.head?, p x = false

theorem Stops.nil (p : β → Bool) : Stops p ([] : List β) := by simp [Stops]

theorem Stops.cons {p : β → Bool} {x : β} (rest : List β) (stop : p x = false) :
    Stops p (x :: rest) := by simp [Stops, stop]

theorem takeWhile_token (p : β → Bool) (token rest : List β) (symbols : ∀ x ∈ token, p x = true)
    (stops : Stops p rest) : (token ++ rest).takeWhile p = token := by
  induction token with
  | nil =>
    cases rest with
    | nil => rfl
    | cons x rest =>
      have stop : p x = false := stops x (by simp)
      simp [stop]
  | cons x token ih =>
    have first := symbols x (by simp)
    have others := ih (fun y member => symbols y (List.mem_cons_of_mem _ member))
    simp [first, others]

theorem unambiguous_of_token {encode : α → List β} (p : β → Bool)
    (symbols : ∀ a, ∀ x ∈ encode a, p x = true) (injective : Function.Injective encode) :
    Unambiguous encode (Stops p) := by
  intro a b s t hs ht same
  have taken := congrArg (List.takeWhile p) same
  rw [takeWhile_token p _ s (symbols a) hs, takeWhile_token p _ t (symbols b) ht] at taken
  rw [taken] at same
  exact ⟨injective taken, List.append_cancel_left same⟩

end Wire
