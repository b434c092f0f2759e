/-!
# Tokens

Source text as a stream of tokens: words with the place they were read at, grouped by delimiters.
A place is a range of characters in one of several sources; added words have none.

## Implementation notes

`words` lists the written words of a stream in order; rendering is joining them with blanks, so two
streams render alike exactly when their words agree one by one.
-/

namespace Memoize

/-- A range of characters in one of the sources. -/
structure Span where
  /-- The source, by number. -/
  source : Nat
  /-- The position of the first character. -/
  start : Nat
  /-- The position after the last character. -/
  stop : Nat
  deriving DecidableEq, Repr

/-- The range of the first character. -/
def Span.first (s : Span) : Span := { s with stop := min (s.start + 1) s.stop }

/-- The range of the last character. -/
def Span.last (s : Span) : Span := { s with start := max (s.stop - 1) s.start }

/-- How a group is delimited. An invisible group stands for a fragment that was substituted as a
whole. -/
inductive Delimiter where
  | parenthesis
  | bracket
  | brace
  | invisible
  deriving DecidableEq, Repr

/-- How the opening of a group is written. -/
def Delimiter.opening : Delimiter → List String
  | .parenthesis => ["("]
  | .bracket => ["["]
  | .brace => ["\x7b"]
  | .invisible => ["__none", "("]

/-- How the closing of a group is written. -/
def Delimiter.closing : Delimiter → List String
  | .parenthesis => [")"]
  | .bracket => ["]"]
  | .brace => ["\x7d"]
  | .invisible => [")"]

/-- A word of the source. -/
inductive Word where
  /-- A name or keyword, with the mark `r#` if it is written with one. -/
  | name (text : String)
  /-- A lifetime, without its quote. -/
  | lifetime (text : String)
  /-- A punctuation character, and whether the next character belongs to the same sign. -/
  | mark (char : Char) (joint : Bool)
  /-- A literal as written. -/
  | literal (text : String)
  deriving DecidableEq, Repr

/-- The written form of a word. -/
def Word.text : Word → String
  | .name s => s
  | .lifetime s => "'" ++ s
  | .mark c _ => c.toString
  | .literal s => s

/-- A word with the place it was read at. -/
structure Token where
  word : Word
  span : Option Span
  deriving DecidableEq, Repr

/-- A name without the mark that lets it be spelled like a keyword. -/
def unraw (name : String) : String :=
  match name.toList with
  | 'r' :: '#' :: rest => String.ofList rest
  | _ => name

/-- A word, or a delimited group of words. -/
inductive TokenTree where
  | leaf (token : Token)
  | group (delimiter : Delimiter) (span : Option Span) (body : List TokenTree)
  deriving Repr

namespace TokenTree

instance : Inhabited TokenTree := ⟨.group .invisible none []⟩

/-- The place of a tree, for a group the place from its opening to its closing. -/
def span : TokenTree → Option Span
  | leaf t => t.span
  | group _ s _ => s

mutual

/-- The written words of a tree. -/
def words : TokenTree → List String
  | leaf t => [t.word.text]
  | group d _ body => d.opening ++ (allWords body ++ d.closing)

/-- The written words of a stream. -/
def allWords : List TokenTree → List String
  | [] => []
  | t :: rest => words t ++ allWords rest

end

@[simp] theorem allWords_nil : allWords [] = [] := by simp [allWords]

@[simp] theorem allWords_cons (t : TokenTree) (ts : List TokenTree) :
    allWords (t :: ts) = t.words ++ allWords ts := by simp [allWords]

/-- The words of a concatenation are the words of its parts. -/
@[simp] theorem allWords_append (s t : List TokenTree) :
    allWords (s ++ t) = allWords s ++ allWords t := by
  induction s with
  | nil => simp
  | cons a s ih => simp [ih]

/-- A stream as text: its words, separated by single blanks. -/
def render (ts : List TokenTree) : String := " ".intercalate (allWords ts)

mutual

/-- The number of words and groups of a tree. -/
def weight : TokenTree → Nat
  | leaf _ => 1
  | group _ _ body => 2 + totalWeight body

/-- The number of words and groups of a stream. -/
def totalWeight : List TokenTree → Nat
  | [] => 0
  | t :: rest => weight t + totalWeight rest

end

/-- An added name. -/
def ofName (text : String) : TokenTree := leaf ⟨.name text, none⟩

/-- An added literal. -/
def ofLiteral (text : String) : TokenTree := leaf ⟨.literal text, none⟩

/-- An added punctuation sign, one mark for each of its characters. -/
def ofSign (sign : String) : List TokenTree :=
  go sign.toList
where
  /-- The marks of a sign; all but the last are joined to the next. -/
  go : List Char → List TokenTree
    | [] => []
    | [c] => [leaf ⟨.mark c false, none⟩]
    | c :: d :: rest => leaf ⟨.mark c true, none⟩ :: go (d :: rest)

/-- An added group. -/
def enclose (d : Delimiter) (body : List TokenTree) : TokenTree := group d none body

end TokenTree

end Memoize
