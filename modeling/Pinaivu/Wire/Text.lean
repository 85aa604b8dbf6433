import Mathlib.Data.List.DropRight
import Mathlib.Data.List.TakeWhile

namespace Wire

/-- Unicode's White_Space property, which Rust's `char::is_whitespace` tests. -/
def isWhitespace (c : Char) : Bool :=
  let n := c.toNat
  (9 ≤ n && n ≤ 13) || n = 0x20 || n = 0x85 || n = 0xA0 || n = 0x1680 || (0x2000 ≤ n && n ≤ 0x200A) ||
    n = 0x2028 || n = 0x2029 || n = 0x202F || n = 0x205F || n = 0x3000

def trimStart (text : List Char) : List Char := text.dropWhile isWhitespace

def trim (text : List Char) : List Char := (trimStart (trimStart text).reverse).reverse

def trimmed (s : String) : String := String.ofList (trim s.toList)

/-- What `String.prototype.trim` takes away: no next-line character, but the byte order mark. -/
def isJsWhitespace (c : Char) : Bool := (isWhitespace c && c.toNat ≠ 0x85) || c.toNat = 0xFEFF

def trimBy {α : Type} (space : α → Bool) (text : List α) : List α :=
  (((text.dropWhile space).reverse).dropWhile space).reverse

def jsTrimmed (s : String) : String := String.ofList (trimBy isJsWhitespace s.toList)

def isAsciiSpace (b : UInt8) : Bool := (9 ≤ b && b ≤ 13) || b = 32

def latin1 (bytes : List UInt8) : List Char := bytes.map fun b => Char.ofNat b.toNat

theorem trimStart_of_head {c : Char} {rest : List Char} (solid : isWhitespace c = false) :
    trimStart (c :: rest) = c :: rest := by
  simp [trimStart, solid]

theorem trim_of_solid {text : List Char} (solid : ∀ c ∈ text, isWhitespace c = false) :
    trim text = text := by
  have kept (chars : List Char) (all : ∀ c ∈ chars, isWhitespace c = false) :
      trimStart chars = chars := by
    cases chars with
    | nil => rfl
    | cons c rest => exact trimStart_of_head (all c (by simp))
  rw [trim, kept text solid, kept text.reverse (by simpa using solid), List.reverse_reverse]

theorem dropWhile_map_of_agree {α β : Type} {f : α → β} {p : β → Bool} {q : α → Bool} :
    ∀ text : List α, (∀ a ∈ text, p (f a) = q a) → (text.map f).dropWhile p = (text.dropWhile q).map f
  | [], _ => rfl
  | a :: text, agree => by
    have rest := dropWhile_map_of_agree text fun b member => agree b (List.mem_cons_of_mem _ member)
    rw [List.map_cons, List.dropWhile_cons, List.dropWhile_cons, agree a (by simp), rest]
    split
    · rfl
    · rw [List.map_cons]

theorem trimBy_map {α β : Type} {f : α → β} {p : β → Bool} {q : α → Bool} {text : List α}
    (agree : ∀ a ∈ text, p (f a) = q a) : trimBy p (text.map f) = (trimBy q text).map f := by
  have inner (a : α) (member : a ∈ (text.dropWhile q).reverse) : p (f a) = q a :=
    agree a ((List.dropWhile_suffix q).subset (List.mem_reverse.mp member))
  rw [trimBy, dropWhile_map_of_agree text agree, ← List.map_reverse, dropWhile_map_of_agree _ inner,
    ← List.map_reverse, trimBy]

theorem trimBy_subset {α : Type} (space : α → Bool) {text : List α} : trimBy space text ⊆ text := by
  intro a member
  have inner := (List.dropWhile_suffix space).subset (List.mem_reverse.mp member)
  exact (List.dropWhile_suffix space).subset (List.mem_reverse.mp inner)

theorem mem_dropWhile_of_solid {α : Type} {space : α → Bool} {text : List α} {a : α} (member : a ∈ text)
    (solid : space a = false) : a ∈ text.dropWhile space := by
  rw [← List.takeWhile_append_dropWhile (p := space) (l := text)] at member
  rcases List.mem_append.mp member with blank | rest
  · rw [List.mem_takeWhile_imp blank] at solid
    cases solid
  · exact rest

theorem mem_trimBy_of_solid {α : Type} {space : α → Bool} {text : List α} {a : α} (member : a ∈ text)
    (solid : space a = false) : a ∈ trimBy space text := by
  have inner := List.mem_reverse.mpr (mem_dropWhile_of_solid member solid)
  exact List.mem_reverse.mpr (mem_dropWhile_of_solid inner solid)

theorem trimBy_cons {α : Type} {space : α → Bool} {a : α} (blank : space a = true) (text : List α) :
    trimBy space (a :: text) = trimBy space text := by
  unfold trimBy
  rw [List.dropWhile_cons_of_pos blank]

theorem trimBy_snoc {α : Type} {space : α → Bool} {a : α} (blank : space a = true) (text : List α) :
    trimBy space (text ++ [a]) = trimBy space text := by
  change ((text ++ [a]).dropWhile space).rdropWhile space = (text.dropWhile space).rdropWhile space
  rw [List.dropWhile_append]
  split
  · rename_i nothing
    rw [List.isEmpty_iff.mp nothing, List.dropWhile_cons_of_pos blank]
    rfl
  · rw [List.rdropWhile_concat_pos _ _ _ blank]

theorem trimBy_eq_self_iff {α : Type} {space : α → Bool} {text : List α} :
    trimBy space text = text ↔
      (∀ a, text.head? = some a → space a = false) ∧ ∀ a, text.getLast? = some a → space a = false := by
  change (text.dropWhile space).rdropWhile space = text ↔ _
  constructor
  · intro kept
    have longer := (List.rdropWhile_prefix space (l := text.dropWhile space)).length_le
    rw [kept] at longer
    have start : text.dropWhile space = text :=
      (List.dropWhile_suffix space).eq_of_length (Nat.le_antisymm (List.dropWhile_suffix space).length_le longer)
    rw [start, List.rdropWhile_eq_self_iff] at kept
    constructor
    · intro a first
      cases text with
      | nil => cases first
      | cons b rest =>
        by_contra blank
        cases first
        rw [Bool.not_eq_false] at blank
        rw [List.dropWhile_cons_of_pos blank] at start
        have shorter := (List.dropWhile_suffix space (l := rest)).length_le
        rw [start, List.length_cons] at shorter
        omega
    · intro a last
      obtain ⟨front, shape⟩ := List.getLast?_eq_some_iff.mp last
      subst text
      have solid := kept (List.append_ne_nil_of_right_ne_nil _ (List.cons_ne_nil _ _))
      rw [List.getLast_concat] at solid
      exact eq_false_of_ne_true solid
  · intro solid
    obtain ⟨first, last⟩ := solid
    have start : text.dropWhile space = text := by
      cases text with
      | nil => rfl
      | cons a rest =>
        rw [List.dropWhile_cons_of_neg]
        rw [first a rfl]
        exact Bool.false_ne_true
    rw [start, List.rdropWhile_eq_self_iff]
    intro nonempty
    rw [last _ (List.getLast?_eq_some_getLast nonempty)]
    exact Bool.false_ne_true

theorem ascii_spaces_agree : ∀ n < 128, isWhitespace (Char.ofNat n) = isAsciiSpace (UInt8.ofNat n) ∧
    isJsWhitespace (Char.ofNat n) = isAsciiSpace (UInt8.ofNat n) := by
  decide

theorem latin1_whitespace {b : UInt8} (ascii : b.toNat < 128) :
    isWhitespace (Char.ofNat b.toNat) = isAsciiSpace b := by
  have agree := (ascii_spaces_agree b.toNat ascii).1
  rwa [UInt8.ofNat_toNat] at agree

end Wire
