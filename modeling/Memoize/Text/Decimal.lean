/-!
# Decimal numbers

Reading a natural number up to a limit. A plus sign may stand before the digits. The first fault
from the left counts: a character that is no digit, or a digit that takes the number over the limit.
-/

namespace Memoize.Text.Decimal

/-- Why a text is no number up to a limit. -/
inductive NumberFault where
  /-- There is no text. -/
  | empty
  /-- A character is no digit. -/
  | invalidDigit
  /-- The number exceeds the limit. -/
  | tooLarge
  deriving DecidableEq, Repr

/-- The text of a fault. -/
def NumberFault.message : NumberFault → String
  | empty => "cannot parse integer from empty string"
  | invalidDigit => "invalid digit found in string"
  | tooLarge => "number too large to fit in target type"

/-- The value of a digit. -/
def digit? (c : Char) : Option Nat :=
  if '0' ≤ c && c ≤ '9' then some (c.toNat - 48) else none

/-- Reads further digits after the number `n`. -/
def readFrom (limit n : Nat) : List Char → Except NumberFault Nat
  | [] => .ok n
  | c :: rest =>
    match digit? c with
    | none => .error .invalidDigit
    | some d => if 10 * n + d ≤ limit then readFrom limit (10 * n + d) rest else .error .tooLarge

/-- Reads the characters of a number. -/
def readChars (limit : Nat) : List Char → Except NumberFault Nat
  | [] => .error .empty
  | ['+'] => .error .invalidDigit
  | '+' :: rest => readFrom limit 0 rest
  | cs => readFrom limit 0 cs

/-- Reads a number up to a limit. -/
def read (limit : Nat) (s : String) : Except NumberFault Nat := readChars limit s.toList

/-- A number that is read further stays within the limit. -/
theorem readFrom_le {limit n m : Nat} {cs : List Char} (hn : n ≤ limit)
    (h : readFrom limit n cs = .ok m) : m ≤ limit := by
  induction cs generalizing n with
  | nil =>
    simp only [readFrom, Except.ok.injEq] at h
    exact h ▸ hn
  | cons c rest ih =>
    simp only [readFrom] at h
    split at h
    · cases h
    · split at h
      · exact ih (by assumption) h
      · cases h

end Memoize.Text.Decimal
