import Pinaivu.Wire.Lines

namespace Boot

open Wire

def isQuote (c : Char) : Bool := c = '"'

def parseLine (line : List Char) : Option (String × String) :=
  let trimmed := trim line
  if trimmed = [] ∨ trimmed.head? = some '#' then none
  else
    match splitOnce '=' trimmed with
    | none => none
    | some (k, v) =>
      let key := trim k
      let val := trimBy isQuote (trim v)
      if key = [] then none else some (String.ofList key, String.ofList val)

def readLines : List (Option (List Char)) → List (String × String)
  | [] => []
  | none :: _ => []
  | some line :: rest => (parseLine line).toList ++ readLines rest

def readConfig (bytes : List UInt8) : List (String × String) := readLines (bufLines bytes)

structure ConfigKey where
  text : String
  nonempty : text.toList ≠ []
  bare : trim text.toList = text.toList
  noEquals : '=' ∉ text.toList
  oneLine : '\n' ∉ text.toList
  notComment : text.toList.head? ≠ some '#'

/-- A line of an env file: `KEY="VALUE"`, `KEY=VALUE`, or one that is blank or a comment. -/
inductive ConfigLine where
  | quoted (key : ConfigKey) (value : String) (oneLine : '\n' ∉ value.toList)
  | unquoted (key : ConfigKey) (value : String) (oneLine : '\n' ∉ value.toList)
      (bare : trim value.toList = value.toList)
      (unenclosed : ¬ ∃ inner, value.toList = '"' :: (inner ++ ['"']))
  | skipped (text : String) (oneLine : '\n' ∉ text.toList)
      (blank : trim text.toList = [] ∨ (trim text.toList).head? = some '#')

namespace ConfigLine

def text : ConfigLine → List Char
  | .quoted key value _ => key.text.toList ++ '=' :: '"' :: (value.toList ++ ['"'])
  | .unquoted key value _ _ _ => key.text.toList ++ '=' :: value.toList
  | .skipped text _ _ => text.toList

def pair : ConfigLine → Option (String × String)
  | .quoted key value _ => some (key.text, value)
  | .unquoted key value _ _ _ => some (key.text, value)
  | .skipped _ _ _ => none

def Clean : ConfigLine → Prop
  | .quoted _ value _ => value.toList.head? ≠ some '"' ∧ value.toList.getLast? ≠ some '"'
  | .unquoted _ value _ _ _ => value.toList.head? ≠ some '"' ∧ value.toList.getLast? ≠ some '"'
  | .skipped _ _ _ => True

def read : ConfigLine → Option (String × String)
  | .quoted key value _ => some (key.text, String.ofList (trimBy isQuote value.toList))
  | .unquoted key value _ _ _ => some (key.text, String.ofList (trimBy isQuote value.toList))
  | .skipped _ _ _ => none

theorem text_oneLine (line : ConfigLine) : '\n' ∉ line.text := by
  cases line with
  | quoted key value oneLine => simp [text, key.oneLine, oneLine]
  | unquoted key value oneLine bare unenclosed => simp [text, key.oneLine, oneLine]
  | skipped filler oneLine blank => exact oneLine

end ConfigLine

/-- The file: its lines, each ended, and perhaps one more that is not. -/
def configText (lines : List ConfigLine) (last : Option ConfigLine) : String :=
  String.ofList (lines.flatMap (fun line => line.text ++ ['\n']) ++ (last.map ConfigLine.text).getD [])

theorem parseLine_congr {left right : List Char} (same : trim left = trim right) :
    parseLine left = parseLine right := by
  unfold parseLine
  rw [same]

theorem parseLine_pair (key : ConfigKey) {rest : List Char}
    (solid : ∀ c, rest.getLast? = some c → isWhitespace c = false) :
    parseLine (key.text.toList ++ '=' :: rest) =
      some (key.text, String.ofList (trimBy isQuote (trim rest))) := by
  obtain ⟨first, tail, shape⟩ := List.exists_cons_of_ne_nil key.nonempty
  have bare : trim (key.text.toList ++ '=' :: rest) = key.text.toList ++ '=' :: rest := by
    apply trimBy_eq_self_iff.mpr
    constructor
    · intro c start
      rw [shape, List.cons_append] at start
      apply (trimBy_eq_self_iff.mp key.bare).1
      rw [shape]
      exact start
    · intro c finish
      rw [List.getLast?_append, List.getLast?_cons] at finish
      cases found : rest.getLast? with
      | none =>
        rw [found] at finish
        cases finish
        decide
      | some d =>
        rw [found] at finish
        cases finish
        exact solid _ found
  have nonempty : ¬ (key.text.toList ++ '=' :: rest = [] ∨
      (key.text.toList ++ '=' :: rest).head? = some '#') := by
    have comment := key.notComment
    rw [shape] at comment ⊢
    simpa using comment
  unfold parseLine
  simp only [bare, if_neg nonempty, splitOnce_append key.noEquals, key.bare, if_neg key.nonempty,
    String.ofList_toList]

theorem parseLine_text (line : ConfigLine) : parseLine line.text = line.read := by
  cases line with
  | quoted key value oneLine =>
    have enclosed : trim ('"' :: (value.toList ++ ['"'])) = '"' :: (value.toList ++ ['"']) := by
      apply trimBy_eq_self_iff.mpr
      constructor
      · intro c start
        cases start
        decide
      · intro c finish
        rw [← List.cons_append, List.getLast?_concat] at finish
        cases finish
        decide
    have parsed := parseLine_pair key (trimBy_eq_self_iff.mp enclosed).2
    rw [enclosed, trimBy_cons rfl, trimBy_snoc rfl] at parsed
    exact parsed
  | unquoted key value oneLine bare unenclosed =>
    have parsed := parseLine_pair key (trimBy_eq_self_iff.mp bare).2
    rw [bare] at parsed
    exact parsed
  | skipped filler oneLine blank =>
    change parseLine filler.toList = none
    unfold parseLine
    simp only [if_pos blank]

theorem readLines_cons (line : List Char) (rest : List (Option (List Char))) :
    readLines (some line :: rest) = (parseLine line).toList ++ readLines rest := rfl

theorem readConfig_line (line : ConfigLine) (rest : List UInt8) :
    readConfig (utf8 (String.ofList (line.text ++ ['\n'])) ++ rest) = line.read.toList ++ readConfig rest := by
  have blank : isWhitespace '\n' = true := by decide
  have same : trim (popLineEnd (line.text ++ ['\n'])) = trim line.text :=
    (trim_popLineEnd _).trans (trimBy_snoc blank line.text)
  unfold readConfig
  rw [bufLines_line line.text_oneLine, readLines_cons, parseLine_congr same, parseLine_text]

theorem readConfig_last (line : ConfigLine) :
    readConfig (utf8 (String.ofList line.text)) = line.read.toList := by
  rw [← parseLine_text]
  by_cases empty : line.text = []
  · rw [empty]
    decide
  · unfold readConfig
    rw [bufLines_last line.text_oneLine empty, readLines_cons, parseLine_congr (trim_popLineEnd _)]
    exact List.append_nil _

theorem utf8_append (left right : List Char) :
    utf8 (String.ofList (left ++ right)) = utf8 (String.ofList left) ++ utf8 (String.ofList right) := by
  rw [utf8_ofList, utf8_ofList, utf8_ofList, List.flatMap_append]

theorem readConfig_configText (lines : List ConfigLine) (last : Option ConfigLine) :
    readConfig (utf8 (configText lines last)) = (lines ++ last.toList).filterMap ConfigLine.read := by
  induction lines with
  | nil =>
    cases last with
    | none => decide
    | some line =>
      apply (readConfig_last line).trans
      cases found : line.read with
      | none => simp [found]
      | some pair => simp [found]
  | cons line lines ih =>
    unfold configText at ih ⊢
    rw [List.flatMap_cons, List.append_assoc, utf8_append, readConfig_line, ih, List.cons_append,
      List.filterMap_cons]
    cases line.read with
    | none => rfl
    | some pair => rfl

theorem trimBy_isQuote_iff (value : String) :
    String.ofList (trimBy isQuote value.toList) = value ↔
      value.toList.head? ≠ some '"' ∧ value.toList.getLast? ≠ some '"' := by
  have texts : String.ofList (trimBy isQuote value.toList) = value ↔
      trimBy isQuote value.toList = value.toList := by
    rw [← String.toList_inj, String.toList_ofList]
  have ends (found : Option Char) : (∀ c, found = some c → isQuote c = false) ↔ found ≠ some '"' := by
    cases found with
    | none => simp
    | some c => simp [isQuote]
  rw [texts, trimBy_eq_self_iff, ends, ends]

theorem ConfigLine.read_eq_pair_iff (line : ConfigLine) : line.read = line.pair ↔ line.Clean := by
  cases line with
  | quoted key value oneLine => simp [read, pair, Clean, trimBy_isQuote_iff]
  | unquoted key value oneLine bare unenclosed => simp [read, pair, Clean, trimBy_isQuote_iff]
  | skipped filler oneLine blank => simp [read, pair, Clean]

theorem ConfigLine.read_none_iff (line : ConfigLine) : line.read = none ↔ line.pair = none := by
  cases line with
  | quoted key value oneLine => simp [read, pair]
  | unquoted key value oneLine bare unenclosed => simp [read, pair]
  | skipped filler oneLine blank => simp [read, pair]

theorem filterMap_eq_iff {α β : Type} {f g : α → Option β} (both : ∀ a, f a = none ↔ g a = none)
    (items : List α) : items.filterMap f = items.filterMap g ↔ ∀ a ∈ items, f a = g a := by
  induction items with
  | nil => simp
  | cons a items ih =>
    rw [List.forall_mem_cons, ← ih]
    cases left : f a with
    | none =>
      have right := (both a).mp left
      rw [List.filterMap_cons_none left, List.filterMap_cons_none right, right]
      simp
    | some b =>
      cases right : g a with
      | none =>
        rw [(both a).mpr right] at left
        cases left
      | some c =>
        rw [List.filterMap_cons_some left, List.filterMap_cons_some right, List.cons.injEq, Option.some.injEq]

/-- A file is read back as it was written exactly if no value in it starts or ends with a quote. -/
theorem read_config_inverts_iff (lines : List ConfigLine) (last : Option ConfigLine) :
    readConfig (utf8 (configText lines last)) = (lines ++ last.toList).filterMap ConfigLine.pair ↔
      ∀ line ∈ lines ++ last.toList, line.Clean := by
  rw [readConfig_configText, filterMap_eq_iff ConfigLine.read_none_iff]
  constructor
  · intro read line member
    exact line.read_eq_pair_iff.mp (read line member)
  · intro clean line member
    exact line.read_eq_pair_iff.mpr (clean line member)

def secretKey : ConfigKey where
  text := "SECRET"
  nonempty := by decide
  bare := by decide
  noEquals := by decide
  oneLine := by decide
  notComment := by decide

/-- The line `SECRET="a"""` was written for the value `a""`, and `SECRET=a"` for the value `a"`. -/
theorem trailing_quotes_lost :
    readConfig (utf8 (configText [.quoted secretKey "a\"\"" (by decide)] none)) = [("SECRET", "a")] ∧
    readConfig (utf8 (configText [.unquoted secretKey "a\"" (by decide) (by decide) (by
      intro enclosed
      obtain ⟨inner, shape⟩ := enclosed
      cases shape)] none)) = [("SECRET", "a")] := by
  constructor
  · rw [readConfig_configText]
    decide
  · rw [readConfig_configText]
    decide

end Boot
