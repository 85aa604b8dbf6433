import Mathlib.Data.List.Infix

namespace Store

variable {α : Type} {file : List α} {start : Nat} {bytes : List α}

/-- The bytes stand in the file from `start` on, without a gap and in order. -/
def IsSegment (file : List α) (start : Nat) (bytes : List α) : Prop := bytes <+: file.drop start

theorem IsSegment.empty (file : List α) (start : Nat) : IsSegment file start [] := List.nil_prefix

theorem IsSegment.grow (segment : IsSegment file start bytes) (more : List α) :
    IsSegment (file ++ more) start bytes :=
  segment.trans ((List.prefix_append file more).drop start)

theorem IsSegment.extend {piece : List α} (segment : IsSegment file start bytes)
    (next : IsSegment file (start + bytes.length) piece) : IsSegment file start (bytes ++ piece) := by
  obtain ⟨rest, shape⟩ := segment
  unfold IsSegment at next ⊢
  rw [← List.drop_drop, ← shape, List.drop_left] at next
  rw [← shape]
  exact (List.prefix_append_right_inj bytes).mpr next

theorem IsSegment.part (segment : IsSegment file start bytes) (offset count : Nat) :
    IsSegment file (start + offset) ((bytes.drop offset).take count) := by
  have dropped := segment.drop offset
  rw [List.drop_drop] at dropped
  exact (List.take_prefix count _).trans dropped

theorem IsSegment.length_le (segment : IsSegment file start bytes) (inside : start ≤ file.length) :
    start + bytes.length ≤ file.length := by
  have bound := List.IsPrefix.length_le segment
  rw [List.length_drop] at bound
  omega

theorem IsSegment.getElem? (segment : IsSegment file start bytes) {i : Nat} (above : start ≤ i)
    (below : i < start + bytes.length) : bytes[i - start]? = file[i]? := by
  obtain ⟨rest, shape⟩ := segment
  have inside : i - start < bytes.length := by omega
  have there := congrArg (fun xs => xs[i - start]?) shape
  simp only [List.getElem?_append_left inside, List.getElem?_drop] at there
  rw [there]
  congr 1
  omega

end Store
