import Memoize.Text.Blank
import Memoize.Text.Identifier
import Memoize.Text.Quoted
import Memoize.Token

/-!
# Reading tokens

`TokenTree.lex` reads a source text into token trees. Blanks and comments separate tokens; a
documentation comment stands for the attribute that holds its text. Brackets must balance.

## Implementation notes

Every reader takes the characters that are left and answers what is left after it, so the place of a
token follows from the two lengths.
-/

namespace Memoize

namespace Lexer

open Text Text.Quoted

/-- The text of `before` that is missing in its end `after`. -/
def consumed (before after : List Char) : String :=
  String.ofList (before.take (before.length - after.length))

/-! ### Blanks and comments -/

/-- Splits a text at the end of its first line. -/
def splitLine : List Char → List Char × List Char
  | [] => ([], [])
  | '\n' :: rest => ([], '\n' :: rest)
  | '\r' :: '\n' :: rest => ([], '\n' :: rest)
  | c :: rest => (c :: (splitLine rest).1, (splitLine rest).2)

/-- Splits a text after the comment whose opening was just read, `depth` more being open around it.
-/
def splitComment : Nat → List Char → Option (List Char × List Char)
  | depth, '/' :: '*' :: rest =>
    (splitComment (depth + 1) rest).map fun r => ('/' :: '*' :: r.1, r.2)
  | 0, '*' :: '/' :: rest => some ([], rest)
  | depth + 1, '*' :: '/' :: rest =>
    (splitComment depth rest).map fun r => ('*' :: '/' :: r.1, r.2)
  | depth, c :: rest => (splitComment depth rest).map fun r => (c :: r.1, r.2)
  | _, [] => none

/-- Whether a comment is plain, neither documenting what follows nor what encloses it. -/
def opensPlainComment : List Char → Bool
  | '/' :: '/' :: '/' :: '/' :: _ => true
  | '/' :: '/' :: '/' :: _ => false
  | '/' :: '/' :: '!' :: _ => false
  | '/' :: '/' :: _ => true
  | '/' :: '*' :: '*' :: '*' :: _ => true
  | '/' :: '*' :: '*' :: '/' :: _ => true
  | '/' :: '*' :: '*' :: _ => false
  | '/' :: '*' :: '!' :: _ => false
  | '/' :: '*' :: _ => true
  | _ => false

/-- Drops blanks and plain comments. The first argument bounds the number of them. -/
def skipBlanks : Nat → List Char → List Char
  | 0, cs => cs
  | n + 1, cs =>
    if opensPlainComment cs then
      match cs with
      | '/' :: '/' :: rest => skipBlanks n (splitLine rest).2
      | '/' :: '*' :: '*' :: '/' :: rest => skipBlanks n rest
      | '/' :: '*' :: rest =>
        match splitComment 0 rest with
        | some (_, after) => skipBlanks n after
        | none => cs
      | _ => cs
    else match cs with
      | c :: rest => if isBlank c then skipBlanks n rest else cs
      | [] => []

/-- Whether every carriage return is followed by a line feed. -/
def noBareReturn : List Char → Bool
  | [] => true
  | '\r' :: '\n' :: rest => noBareReturn rest
  | c :: rest => c != '\r' && noBareReturn rest

/-- A documentation comment: its text, whether it documents what encloses it, and what follows. -/
def docComment? (cs : List Char) : Option (List Char × Bool × List Char) :=
  match cs with
  | '/' :: '/' :: '!' :: rest => some ((splitLine rest).1, true, (splitLine rest).2)
  | '/' :: '*' :: '!' :: rest => (splitComment 0 rest).map fun r => (r.1, true, r.2)
  | '/' :: '/' :: '/' :: '/' :: _ => none
  | '/' :: '/' :: '/' :: rest => some ((splitLine rest).1, false, (splitLine rest).2)
  | '/' :: '*' :: '*' :: '*' :: _ => none
  | '/' :: '*' :: '*' :: rest => (splitComment 0 rest).map fun r => (r.1, false, r.2)
  | _ => none

/-! ### Names -/

/-- The name a text begins with, and what follows it. -/
def plainName? : List Char → Option (List Char × List Char)
  | [] => none
  | c :: rest =>
    if isNameStart c then some (c :: rest.takeWhile isNamePart, rest.dropWhile isNamePart) else none

/-- The names that cannot be written raw. -/
def neverRaw : List String := ["_", "super", "self", "Self", "crate"]

/-- The name a text begins with, plain or raw. -/
def name? (cs : List Char) : Option (String × List Char) :=
  match cs with
  | 'r' :: '#' :: rest =>
    match plainName? rest with
    | some (n, after) =>
      if neverRaw.contains (String.ofList n) then none
      else some ("r#" ++ String.ofList n, after)
    | none => none
  | _ => (plainName? cs).map fun r => (String.ofList r.1, r.2)

/-- The openings that look like a name but begin a literal. -/
def literalOpenings : List String :=
  ["r\"", "r#\"", "r##", "b\"", "b'", "br\"", "br#", "c\"", "cr\"", "cr#"]

/-- Whether `cs` begins with `s`. -/
def startsWith (s : String) (cs : List Char) : Bool := s.toList.isPrefixOf cs

/-! ### Literals -/

/-- Drops the suffix that a literal may have. -/
def dropSuffix (cs : List Char) : List Char :=
  match plainName? cs with
  | some (_, after) => after
  | none => cs

/-- What follows a quoted body and its suffix. -/
def afterQuoted (f : Flavour) (cs : List Char) : Option (List Char) :=
  (scan f .plain cs).map fun r => dropSuffix r.2

/-- What follows a raw body and its suffix. -/
def afterRaw (f : Flavour) (cs : List Char) : Option (List Char) :=
  match openRaw 0 cs with
  | some (fence, body) => (scanRaw f fence body).map fun r => dropSuffix r.2
  | none => none

/-- What follows the closing quote of a character and its suffix. -/
def closeChar : List Char → Option (List Char)
  | '\'' :: rest => some (dropSuffix rest)
  | _ => none

/-- What follows a character literal, its opening quote having been read. -/
def afterChar (f : Flavour) (cs : List Char) : Option (List Char) :=
  match cs with
  | '\\' :: rest => (scanEscape f .escape rest).bind closeChar
  | c :: rest => if f = .bytes && 128 ≤ c.toNat then none else closeChar rest
  | [] => none

/-- A number may be followed by a suffix, after which no part of a name may stand. -/
def closeNumber (cs : List Char) : Option (List Char) :=
  let rest := dropSuffix cs
  if rest.head?.any isNamePart then none else some rest

/-- The digits before and after the point of a fraction, up to an exponent: what is left, whether a
point was read, whether an exponent mark was, and the place just before that mark. -/
def fractionDigits (hasPoint : Bool) : List Char → Option (List Char × Bool × Bool × List Char)
  | [] => some ([], hasPoint, false, [])
  | c :: rest =>
    if c.isDigit || c = '_' then fractionDigits hasPoint rest
    else if c = '.' then
      if hasPoint then some (c :: rest, hasPoint, false, c :: rest)
      else if rest.head?.any fun d => d = '.' || isNameStart d then none
      else fractionDigits true rest
    else if c = 'e' || c = 'E' then some (rest, hasPoint, true, c :: rest)
    else some (c :: rest, hasPoint, false, c :: rest)

/-- The digits of an exponent: what is left, unless there is no digit or a second sign. -/
def exponentDigits (hasSign hasDigit : Bool) : List Char → Option (List Char)
  | [] => if hasDigit then some [] else none
  | c :: rest =>
    if c = '+' || c = '-' then
      if hasDigit then some (c :: rest)
      else if hasSign then none
      else exponentDigits true hasDigit rest
    else if c.isDigit then exponentDigits hasSign true rest
    else if c = '_' then exponentDigits hasSign hasDigit rest
    else if hasDigit then some (c :: rest) else none

/-- What follows a number with a point or an exponent. -/
def afterFloat (cs : List Char) : Option (List Char) :=
  match cs with
  | c :: rest =>
    if !c.isDigit then none
    else match fractionDigits false rest with
      | none => none
      | some (after, hasPoint, hasExponent, before) =>
        if hasExponent then
          match exponentDigits false false after with
          | some rest => closeNumber rest
          | none => if hasPoint then closeNumber before else none
        else if hasPoint then closeNumber after else none
  | [] => none

/-- The digits of a whole number in a base: what is left, unless there is no digit or one is too
large for the base. -/
def wholeDigits (base : Nat) (empty : Bool) : List Char → Option (List Char)
  | [] => if empty then none else some []
  | c :: rest =>
    let stop := if empty then none else some (c :: rest)
    if c = '_' then if empty && base = 10 then none else wholeDigits base empty rest
    else if c.isDigit then if base ≤ c.toNat - 48 then none else wholeDigits base false rest
    else match hexValue? c with
      | some d => if base ≤ d then stop else wholeDigits base false rest
      | none => stop

/-- What follows a whole number. -/
def afterWhole (cs : List Char) : Option (List Char) :=
  let digits :=
    match cs with
    | '0' :: 'x' :: rest => wholeDigits 16 true rest
    | '0' :: 'o' :: rest => wholeDigits 8 true rest
    | '0' :: 'b' :: rest => wholeDigits 2 true rest
    | _ => wholeDigits 10 true cs
  digits.bind closeNumber

/-- What follows the literal a text begins with. -/
def afterLiteral (cs : List Char) : Option (List Char) :=
  let quoted :=
    match cs with
    | '"' :: rest => afterQuoted .text rest
    | 'r' :: rest => afterRaw .text rest
    | 'b' :: '"' :: rest => afterQuoted .bytes rest
    | 'b' :: 'r' :: rest => afterRaw .bytes rest
    | 'c' :: '"' :: rest => afterQuoted .terminated rest
    | 'c' :: 'r' :: rest => afterRaw .terminated rest
    | 'b' :: '\'' :: rest => afterChar .bytes rest
    | '\'' :: rest => afterChar .text rest
    | _ => none
  quoted.orElse fun _ => (afterFloat cs).orElse fun _ => afterWhole cs

/-! ### Words -/

/-- The punctuation characters. -/
def markChars : List Char := "~!@#$%^&*-=+|;:,<.>/?'".toList

/-- Whether a text begins with a punctuation character; a comment does not. -/
def opensMark (cs : List Char) : Bool :=
  !startsWith "//" cs && !startsWith "/*" cs && cs.head?.any (markChars.contains ·)

/-- The word that stands for a place where reading went wrong before. -/
def damaged : String := "(/*ERROR*/)"

/-- The word a text begins with, and what follows it. -/
def word? (cs : List Char) : Option (Word × List Char) :=
  match afterLiteral cs with
  | some rest => some (.literal (consumed cs rest), rest)
  | none =>
    if opensMark cs then
      match cs with
      | '\'' :: rest =>
        match name? rest with
        | some (n, after) =>
          if after.head? = some '\'' then none
          else if after.head? = some '#' && !startsWith "r#" rest then none
          else some (.lifetime n, after)
        | none => none
      | c :: rest => some (.mark c (opensMark rest), rest)
      | [] => none
    else if literalOpenings.any (startsWith · cs) then none
    else match name? cs with
      | some (n, rest) => some (.name n, rest)
      | none =>
        if startsWith damaged cs then some (.literal damaged, cs.drop damaged.length) else none

/-! ### Trees -/

/-- The delimiter that a character opens. -/
def opens? (cs : List Char) : Option Delimiter :=
  match cs with
  | '(' :: _ => if startsWith damaged cs then none else some .parenthesis
  | '[' :: _ => some .bracket
  | '{' :: _ => some .brace
  | _ => none

/-- The delimiter that a character closes. -/
def closes? (cs : List Char) : Option Delimiter :=
  match cs with
  | ')' :: _ => some .parenthesis
  | ']' :: _ => some .bracket
  | '}' :: _ => some .brace
  | _ => none

/-- The attribute that a documentation comment stands for. -/
def docTrees (text : List Char) (inner : Bool) (span : Span) : List TokenTree :=
  let mark (c : Char) : TokenTree := .leaf ⟨.mark c false, some span⟩
  let body : List TokenTree :=
    [.leaf ⟨.name "doc", some span⟩, mark '=',
     .leaf ⟨.literal (quote (String.ofList text)), some span⟩]
  mark '#' :: ((if inner then [mark '!'] else []) ++ [.group .bracket (some span) body])

/-- Reads trees up to the end of the text or an unmatched closing delimiter. `total` is the length
of the whole text; the first argument bounds the number of steps. -/
def trees (source total : Nat) : Nat → List Char → Option (List TokenTree × List Char)
  | 0, _ => none
  | n + 1, cs₀ =>
    let cs := skipBlanks cs₀.length cs₀
    let place (before after : List Char) : Span :=
      ⟨source, total - before.length, total - after.length⟩
    match docComment? cs with
    | some (text, inner, rest) =>
      if noBareReturn text then
        (trees source total n rest).map fun r => (docTrees text inner (place cs rest) ++ r.1, r.2)
      else none
    | none =>
      match cs with
      | [] => some ([], [])
      | _ :: tail =>
        match opens? cs with
        | some d =>
          match trees source total n tail with
          | some (body, close) =>
            if closes? close = some d then
              let rest := close.tail
              (trees source total n rest).map fun r =>
                (.group d (some (place cs rest)) body :: r.1, r.2)
            else none
          | none => none
        | none =>
          if (closes? cs).isSome then some ([], cs)
          else match word? cs with
            | some (w, rest) =>
              (trees source total n rest).map fun r => (.leaf ⟨w, some (place cs rest)⟩ :: r.1, r.2)
            | none => none

/-- Drops one byte order mark. -/
def dropByteOrderMark : List Char → List Char
  | '\ufeff' :: rest => rest
  | cs => cs

end Lexer

/-- Reads a text into token trees, or answers nothing if it is not made of tokens with balanced
brackets. -/
def TokenTree.lex (source : Nat) (text : String) : Option (List TokenTree) :=
  let cs := text.toList
  match Lexer.trees source cs.length (cs.length + 1) (Lexer.dropByteOrderMark cs) with
  | some (ts, []) => some ts
  | _ => none

end Memoize
