/-!
# Byte strings

Every text of this library (SQL, names, cell contents, messages) is a list of bytes. No
encoding is assumed: lengths, order and case folding all work on single bytes, and only ASCII
letters have a case. The order of byte strings is the lexicographic order of lists, which for
bytes is the order of names in a row or in an option table.
-/

namespace SqlPlan

/-- A text is a list of bytes. -/
abbrev Bytes := List UInt8

/-- The bytes of an ASCII text. All fixed wording of the library is written with it. -/
def ascii (s : String) : Bytes := s.toList.map fun c => c.toNat.toUInt8

namespace Byte

/-- an ASCII capital -/
def isUpper (b : UInt8) : Bool := 65 ≤ b && b ≤ 90

/-- an ASCII small letter -/
def isLower (b : UInt8) : Bool := 97 ≤ b && b ≤ 122

/-- an ASCII letter -/
def isAlpha (b : UInt8) : Bool := isUpper b || isLower b

/-- a decimal digit -/
def isDigit (b : UInt8) : Bool := 48 ≤ b && b ≤ 57

/-- White space: the blank, and tab, line feed, vertical tab, form feed and return. -/
def isSpace (b : UInt8) : Bool := b == 32 || (9 ≤ b && b ≤ 13)

/-- A capital becomes its small letter; every other byte stays. -/
def toLower (b : UInt8) : UInt8 := if isUpper b then b + 32 else b

/-- A small letter becomes its capital; every other byte stays. -/
def toUpper (b : UInt8) : UInt8 := if isLower b then b - 32 else b

/-- the single quote -/
abbrev quote : UInt8 := 39

/-- the double quote -/
abbrev doubleQuote : UInt8 := 34

/-- the question mark, the placeholder of a parameter -/
abbrev question : UInt8 := 63

/-- the underscore -/
abbrev underscore : UInt8 := 95

/-- the equals sign -/
abbrev equals : UInt8 := 61

/-- the minus sign -/
abbrev minus : UInt8 := 45

/-- the plus sign -/
abbrev plus : UInt8 := 43

/-- the decimal point -/
abbrev point : UInt8 := 46

/-- the line feed -/
abbrev newline : UInt8 := 10

/-- the carriage return -/
abbrev carriageReturn : UInt8 := 13

end Byte

namespace Bytes

/-- The text up to its first NUL byte, which is all of it that a reader of NUL-terminated
texts sees. -/
def upToNul (s : Bytes) : Bytes := s.takeWhile (· != 0)

/-- The text with its capitals made small; two texts are equal up to ASCII case when their
folds are equal. -/
def fold (s : Bytes) : Bytes := s.map Byte.toLower

/-- Equality up to ASCII case. -/
def sameLetters (s t : Bytes) : Bool := fold s == fold t

/-- Does `t` occur in `s`? -/
def occursIn (t : Bytes) : Bytes → Bool
  | [] => t.isEmpty
  | b :: s => t.isPrefixOf (b :: s) || occursIn t s

/-- Does `t` occur in the text at a place where `keep` accepts what follows it? -/
def existsAfter (t : Bytes) (keep : Bytes → Bool) : Bytes → Bool
  | [] => t.isEmpty && keep []
  | b :: s => (t.isPrefixOf (b :: s) && keep ((b :: s).drop t.length)) || existsAfter t keep s

/-- The pieces of a text between separators: one more than there are separators. -/
def pieces (sep : UInt8) : Bytes → List Bytes
  | [] => [[]]
  | b :: s =>
    if b = sep then [] :: pieces sep s
    else match pieces sep s with
      | [] => [[b]]
      | p :: ps => (b :: p) :: ps

/-- The pieces of a text between separators, where the empty text has no piece at all. -/
def split (sep : UInt8) (s : Bytes) : List Bytes := if s.isEmpty then [] else pieces sep s

/-- The parts of a list one after the other, with a separator between neighbours. -/
def joined (sep : Bytes) (parts : List Bytes) : Bytes := (parts.intersperse sep).flatten

/-- Parts with a separator between neighbours: every part but the first has one in front. -/
theorem flatten_intersperse_cons {α : Type} (sep part : List α) (parts : List (List α)) :
    ((part :: parts).intersperse sep).flatten = part ++ parts.flatMap (sep ++ ·) := by
  induction parts generalizing part with
  | nil => simp
  | cons next parts ih =>
    rw [List.intersperse_cons_cons, List.flatten_cons, List.flatten_cons, ih next,
      List.flatMap_cons, List.append_assoc]

/-- What is done to each part and to the separator is done to the parts with separators. -/
theorem map_flatten_intersperse {α β : Type} {φ : List α → List β} (hnil : φ [] = [])
    (happend : ∀ s t, φ (s ++ t) = φ s ++ φ t) (sep : List α) (parts : List (List α)) :
    φ (parts.intersperse sep).flatten = ((parts.map φ).intersperse (φ sep)).flatten := by
  cases parts with
  | nil => exact hnil
  | cons part parts =>
    have hflatMap : φ (parts.flatMap (sep ++ ·)) = (parts.map φ).flatMap (φ sep ++ ·) := by
      induction parts with
      | nil => exact hnil
      | cons next parts ih => simp only [List.map_cons, List.flatMap_cons, happend, ih]
    rw [List.map_cons, flatten_intersperse_cons, flatten_intersperse_cons, happend, hflatMap]

/-- Splitting gives at least one piece. -/
theorem pieces_ne_nil (sep : UInt8) (s : Bytes) : pieces sep s ≠ [] := by
  cases s with
  | nil => simp [pieces]
  | cons b s =>
    simp only [pieces]
    split
    · simp
    · split <;> simp

end Bytes

end SqlPlan
