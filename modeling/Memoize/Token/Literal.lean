import Memoize.Text.Identifier
import Memoize.Text.Quoted

/-!
# Literals

What kind of literal a written word is, and the value of the kinds that arguments may have: texts
and plain numbers.
-/

namespace Memoize

/-- The kinds of literal. -/
inductive LiteralKind where
  | text
  | byteString
  | terminated
  | byte
  | char
  | whole
  | fraction
  /-- The word that stands for a damaged place. -/
  | damaged
  deriving DecidableEq, Repr

namespace Literal

open Text Text.Quoted

/-- Whether the characters after an exponent mark make the number a fraction: digits, possibly with
a sign before them and a suffix after them. -/
def isExponent (hasDigit : Bool) : List Char → Bool
  | [] => hasDigit
  | c :: rest =>
    if c = '_' then isExponent hasDigit rest
    else if c = '+' || c = '-' then true
    else if c.isDigit then isExponent true rest
    else hasDigit

/-- Whether a decimal number has a point or an exponent. -/
def isFraction : List Char → Bool
  | [] => false
  | c :: rest =>
    if c.isDigit || c = '_' then isFraction rest
    else if c = '.' then true
    else if c = 'e' || c = 'E' then isExponent false rest
    else false

/-- The kind of a literal as written. -/
def kind (word : String) : LiteralKind :=
  match word.toList with
  | '"' :: _ => .text
  | 'r' :: _ => .text
  | 'b' :: '\'' :: _ => .byte
  | 'b' :: _ => .byteString
  | 'c' :: _ => .terminated
  | '\'' :: _ => .char
  | '(' :: _ => .damaged
  | '0' :: 'x' :: _ => .whole
  | '0' :: 'o' :: _ => .whole
  | '0' :: 'b' :: _ => .whole
  | cs => if isFraction cs then .fraction else .whole

/-- Whether a literal is a number. -/
def isNumber (word : String) : Bool :=
  match kind word with
  | .whole => true
  | .fraction => true
  | _ => false

/-- The text that a text literal stands for, and the suffix written after it. -/
def textValue? (word : String) : Option (String × String) :=
  let split (r : List Char × List Char) := (String.ofList r.1, String.ofList r.2)
  match word.toList with
  | '"' :: body => (scan .text .plain body).map split
  | 'r' :: body =>
    match openRaw 0 body with
    | some (fence, inner) => (scanRaw .text fence inner).map split
    | none => none
  | _ => none

/-- The value of the leading digits of a number in a base, and what follows them. -/
def digitsValue (base value : Nat) : List Char → Nat × List Char
  | [] => (value, [])
  | c :: rest =>
    if c = '_' then digitsValue base value rest
    else match hexValue? c with
      | some d => if d < base then digitsValue base (base * value + d) rest else (value, c :: rest)
      | none => (value, c :: rest)

/-- The value of a whole number and the suffix written after it. -/
def wholeValue? (word : String) : Option (Nat × String) :=
  let read (base : Nat) (cs : List Char) :=
    some ((digitsValue base 0 cs).1, String.ofList (digitsValue base 0 cs).2)
  if kind word = .whole then
    match word.toList with
    | '0' :: 'x' :: rest => read 16 rest
    | '0' :: 'o' :: rest => read 8 rest
    | '0' :: 'b' :: rest => read 2 rest
    | cs => read 10 cs
  else none

end Literal

end Memoize
