import SqlPlan.Value

/-!
# Placeholders in SQL text

A question mark stands for a parameter when it is outside quotes. A quote, single or double, opens
a quoted stretch that ends at the next quote of the same kind; a doubled quote inside is thus two
stretches side by side, which comes to the same. The scanner carries the quote that is open, so a
scan of `s ++ t` is a scan of `s` and then one of `t` from where the first one stopped.
-/

namespace SqlPlan.Placeholder

/-- The quote that is open, if one is. -/
abbrev OpenQuote := Option UInt8

/-- Is the byte one of the two quotes? -/
def isQuote (b : UInt8) : Bool := b == Byte.quote || b == Byte.doubleQuote

/-- The state after one byte. -/
def step : OpenQuote → UInt8 → OpenQuote
  | some q, b => if b = q then none else some q
  | none, b => if isQuote b then some b else none

/-- The state after a text. -/
def scan (q : OpenQuote) (s : Bytes) : OpenQuote := s.foldl step q

/-- Does the byte stand for a parameter here? -/
def isPlaceholder (q : OpenQuote) (b : UInt8) : Bool := q.isNone && b == Byte.question

/-- The number of placeholders of a text that begins in the given state. -/
def countFrom : OpenQuote → Bytes → Nat
  | _, [] => 0
  | q, b :: s => (if isPlaceholder q b then 1 else 0) + countFrom (step q b) s

/-- The number of placeholders outside quotes. -/
def count (sql : Bytes) : Nat := countFrom none sql

/-- A text with its placeholders replaced by the literals of the given values, in order; the
placeholders for which there is no value stay. -/
def expandFrom : OpenQuote → Bytes → List Value → Bytes
  | _, [], _ => []
  | q, b :: s, [] => b :: expandFrom (step q b) s []
  | q, b :: s, v :: vs =>
    if isPlaceholder q b then v.literal ++ expandFrom (step q b) s vs
    else b :: expandFrom (step q b) s (v :: vs)

/-- A text from its beginning, outside quotes, with values in place of its placeholders. -/
def expand (sql : Bytes) (vs : List Value) : Bytes := expandFrom none sql vs

theorem scan_append (q : OpenQuote) (s t : Bytes) : scan q (s ++ t) = scan (scan q s) t :=
  List.foldl_append ..

theorem countFrom_append (q : OpenQuote) (s t : Bytes) :
    countFrom q (s ++ t) = countFrom q s + countFrom (scan q s) t := by
  induction s generalizing q with
  | nil => simp [countFrom, scan]
  | cons b s ih => simp [countFrom, scan, ih, Nat.add_assoc]

/-- Without values nothing is replaced. -/
theorem expandFrom_nil (q : OpenQuote) (s : Bytes) : expandFrom q s [] = s := by
  induction s generalizing q with
  | nil => rfl
  | cons b s ih => simp [expandFrom, ih]

end SqlPlan.Placeholder
