import Memoize.Diagnostic
import Memoize.Syntax.Phrase
import Memoize.Token.Literal

/-!
# Token streams

Parsers read a stream of token trees from the front. Invisible groups are transparent: their content
is read in their place, unless a rule asks for the group itself. A group that is left before its end
is remembered as stray, and the whole parse fails in the end if no other fault does before.

## Implementation notes

`front` brings the first visible tree of a stream to its head. Every parser either reads from the
head of `front` or asks for an invisible group at the head of the stream itself.
-/

namespace Memoize

/-- Why a text does not have the expected form. A fault at the end of a group is about its closing
delimiter, which is known once the group is left. -/
structure Fault where
  message : String
  place : Place
  atEnd : Bool
  deriving Repr

/-- The fault as a diagnostic. -/
def Fault.diagnostic (f : Fault) : Diagnostic := ⟨f.message, f.place⟩

namespace TokenTree

mutual

/-- A tree with the invisible groups at its head opened. -/
def frontOf : TokenTree → List TokenTree
  | group .invisible _ body => front body
  | t => [t]

/-- A stream with the invisible groups at its head opened. -/
def front : List TokenTree → List TokenTree
  | [] => []
  | t :: rest =>
    match frontOf t with
    | [] => front rest
    | u :: us => u :: (us ++ rest)

end

mutual

/-- The number of visible trees in a tree, looking into invisible groups only. -/
def visibleOf : TokenTree → Nat
  | group .invisible _ body => visible body
  | _ => 1

/-- The number of visible trees of a stream, looking into invisible groups only. -/
def visible : List TokenTree → Nat
  | [] => 0
  | t :: rest => visibleOf t + visible rest

end

mutual

/-- The part of a tree that holds its first `n` visible trees. -/
def takeOf (n : Nat) : TokenTree → List TokenTree
  | group .invisible s body =>
    if visible body ≤ n then [group .invisible s body] else takeVisible n body
  | t => [t]

/-- The beginning of a stream that holds its first `n` visible trees. Invisible groups are kept if
they lie in it as a whole. -/
def takeVisible (n : Nat) : List TokenTree → List TokenTree
  | [] => []
  | t :: rest =>
    if n = 0 then []
    else if visibleOf t ≤ n then t :: takeVisible (n - visibleOf t) rest
    else takeOf n t

end

end TokenTree

/-- The tokens that are left, and the first group that was left before its end. -/
structure Stream where
  rest : List TokenTree
  stray : Option Fault

/-- A parser takes trees from the front of a stream or fails. -/
abbrev Parser := StateT Stream (Except Fault)

namespace Parser

/-! ### Looking ahead -/

/-- What stands at the head of a stream, invisible groups being looked into. -/
abbrev Peek := List TokenTree → Bool

/-- The word at the head of a stream. -/
def headWord? (ts : List TokenTree) : Option Word :=
  match TokenTree.front ts with
  | .leaf t :: _ => some t.word
  | _ => none

/-- The stream after its first visible tree. -/
def next (ts : List TokenTree) : List TokenTree := (TokenTree.front ts).tail

/-- The names that are keywords. -/
def keywords : List String :=
  ["_", "abstract", "as", "async", "await", "become", "box", "break", "const", "continue", "crate",
   "do", "dyn", "else", "enum", "extern", "false", "final", "fn", "for", "if", "impl", "in", "let",
   "loop", "macro", "match", "mod", "move", "mut", "override", "priv", "pub", "ref", "return",
   "Self", "self", "static", "struct", "super", "trait", "true", "try", "type", "typeof", "unsafe",
   "unsized", "use", "virtual", "where", "while", "yield"]

/-- Whether a name may be declared. -/
def isIdentifier (name : String) : Bool := !keywords.contains name

/-- Any name, keywords included. -/
def isAnyName : Peek := fun ts =>
  match headWord? ts with
  | some (.name _) => true
  | _ => false

/-- A name that is no keyword. -/
def isName : Peek := fun ts =>
  match headWord? ts with
  | some (.name n) => isIdentifier n
  | _ => false

/-- A certain keyword. -/
def isKeyword (k : String) : Peek := fun ts => headWord? ts == some (.name k)

/-- One of several keywords. -/
def isKeywordOf (ks : List String) : Peek := fun ts => ks.any (isKeyword · ts)

/-- A lifetime. -/
def isLifetime : Peek := fun ts =>
  match headWord? ts with
  | some (.lifetime _) => true
  | _ => false

/-- A punctuation sign, which may be the beginning of a longer one. -/
def isSignChars : List Char → Peek
  | [] => fun _ => true
  | c :: more => fun ts =>
    match headWord? ts with
    | some (.mark d joint) => c == d && (more.isEmpty || (joint && isSignChars more (next ts)))
    | _ => false

/-- A punctuation sign, which may be the beginning of a longer one. -/
def isSign (sign : String) : Peek := isSignChars sign.toList

/-- A group with a certain visible delimiter. -/
def isGroup (d : Delimiter) : Peek := fun ts =>
  match TokenTree.front ts with
  | .group e _ _ :: _ => d == e
  | _ => false

/-- An invisible group, not looked into. -/
def isFragment : Peek := fun ts =>
  match ts with
  | .group .invisible _ _ :: _ => true
  | _ => false

/-- A literal of one of some kinds. -/
def isLiteralOf (kinds : List LiteralKind) : Peek := fun ts =>
  match headWord? ts with
  | some (.literal s) => kinds.contains (Literal.kind s)
  | _ => false

/-- A literal, a truth value, or a number after a minus sign. -/
def isLiteral : Peek := fun ts =>
  match headWord? ts with
  | some (.literal _) => true
  | some (.name n) => n == "true" || n == "false"
  | some (.mark '-' _) => isLiteralOf [.whole, .fraction] (next ts)
  | _ => false

/-- Looks at the stream without reading. -/
def peek (p : Peek) : Parser Bool := return p (← get).rest

/-- Looks past the first visible tree. -/
def peek2 (p : Peek) : Parser Bool := return p (next (← get).rest)

/-- Looks past the first two visible trees. -/
def peek3 (p : Peek) : Parser Bool := return p (next (next (← get).rest))

/-- Whether the stream has been read to its end. -/
def isDone : Parser Bool := return (← get).rest.isEmpty

/-! ### Faults -/

/-- The place of the next token, and whether there is none. For a group it is the opening delimiter,
for a lifetime its quote. -/
def here (s : Stream) : Place × Bool :=
  match s.rest with
  | [] => (.nowhere, true)
  | .leaf ⟨.lifetime _, span⟩ :: _ => (Place.ofSpan (span.map Span.first), false)
  | .leaf t :: _ => (Place.ofSpan t.span, false)
  | .group _ span _ :: _ => (Place.ofSpan (span.map Span.first), false)

/-- Fails at the next token with a message that does not mention the end of the input. -/
def failHere {α : Type} (message : String) : Parser α := do
  let (place, atEnd) := here (← get)
  throw ⟨message, place, atEnd⟩

/-- Fails at the next token. -/
def fail {α : Type} (message : String) : Parser α := do
  let (place, atEnd) := here (← get)
  throw ⟨if atEnd then "unexpected end of input, " ++ message else message, place, atEnd⟩

/-- Fails at given tokens. -/
def failAt {α : Type} (message : String) (ts : List TokenTree) : Parser α :=
  throw ⟨message, Place.ofTokens ts, false⟩

/-- A sign or keyword as it is named in messages. -/
def quoted (s : String) : String := "`" ++ s ++ "`"

/-- Fails because none of several things was found. -/
def failExpected {α : Type} (wanted : List String) : Parser α :=
  match wanted with
  | [] => do
    let (place, atEnd) := here (← get)
    throw ⟨if atEnd then "unexpected end of input" else "unexpected token", place, atEnd⟩
  | [a] => fail ("expected " ++ a)
  | [a, b] => fail ("expected " ++ a ++ " or " ++ b)
  | more => fail ("expected one of: " ++ ", ".intercalate more)

/-! ### Reading -/

/-- Reads one visible tree. -/
def advance : Parser Unit := modify fun s => { s with rest := next s.rest }

/-- Reads any name. -/
def anyName : Parser Token := do
  match TokenTree.front (← get).rest with
  | .leaf ⟨.name n, span⟩ :: _ => advance; return ⟨.name n, span⟩
  | _ => fail "expected ident"

/-- Reads a name that is no keyword. -/
def name : Parser Token := do
  match TokenTree.front (← get).rest with
  | .leaf ⟨.name n, span⟩ :: _ =>
    if isIdentifier n then advance; return ⟨.name n, span⟩
    else fail ("expected identifier, found keyword " ++ quoted n)
  | _ => fail "expected identifier"

/-- Reads a certain keyword. -/
def keyword (k : String) : Parser Token := do
  match TokenTree.front (← get).rest with
  | .leaf ⟨.name n, span⟩ :: _ =>
    if n = k then advance; return ⟨.name n, span⟩ else fail ("expected " ++ quoted k)
  | _ => fail ("expected " ++ quoted k)

/-- Reads a certain keyword if it comes next. -/
def keyword? (k : String) : Parser (Option Token) := do
  if ← peek (isKeyword k) then return some (← keyword k) else return none

/-- Reads a lifetime. -/
def lifetime : Parser Token := do
  match TokenTree.front (← get).rest with
  | .leaf ⟨.lifetime n, span⟩ :: _ => advance; return ⟨.lifetime n, span⟩
  | _ => fail "expected lifetime"

/-- The tokens of a sign at the head of a stream: all but the last are joined to the next. -/
def signTokens : List Char → List TokenTree → List Token
  | [], _ => []
  | _ :: more, ts =>
    match TokenTree.front ts with
    | .leaf ⟨.mark d _, span⟩ :: _ => ⟨.mark d !more.isEmpty, span⟩ :: signTokens more (next ts)
    | _ => []

/-- Reads a punctuation sign. -/
def sign (s : String) : Parser (List Token) := do
  let ts := (← get).rest
  if isSign s ts then
    let read := signTokens s.toList ts
    read.forM fun _ => advance
    return read
  else failHere ("expected " ++ quoted s)

/-- Reads a punctuation sign if it comes next. -/
def sign? (s : String) : Parser (Option (List Token)) := do
  if ← peek (isSign s) then return some (← sign s) else return none

/-- Reads a comma or another sign of one character. -/
def mark (s : String) : Parser Token := do
  match ← sign s with
  | t :: _ => return t
  | [] => failHere ("expected " ++ quoted s)

/-- Reads a sign of one character if it comes next. -/
def mark? (s : String) : Parser (Option Token) := do
  if ← peek (isSign s) then return some (← mark s) else return none

/-- Reads a literal of one of some kinds. -/
def literalOf (kinds : List LiteralKind) (wanted : String) : Parser Token := do
  match TokenTree.front (← get).rest with
  | .leaf ⟨.literal s, span⟩ :: _ =>
    if kinds.contains (Literal.kind s) then advance; return ⟨.literal s, span⟩ else fail wanted
  | _ => fail wanted

/-- Reads a literal, a truth value, or a number after a minus sign. -/
def literal : Parser (List Token) := do
  match TokenTree.front (← get).rest with
  | .leaf ⟨.literal s, span⟩ :: _ => advance; return [⟨.literal s, span⟩]
  | .leaf ⟨.name n, span⟩ :: _ =>
    if n = "true" || n = "false" then advance; return [⟨.name n, span⟩] else fail "expected literal"
  | .leaf ⟨.mark '-' _, minus⟩ :: _ =>
    if ← peek2 (isLiteralOf [.whole, .fraction]) then
      advance
      let number ← literalOf [.whole, .fraction] "expected literal"
      return [⟨.mark '-' false, minus⟩, number]
    else fail "expected literal"
  | _ => fail "expected literal"

/-- The message for a group that is missing. -/
def missingGroup : Delimiter → String
  | .parenthesis => "expected parentheses"
  | .bracket => "expected square brackets"
  | .brace => "expected curly braces"
  | .invisible => "expected invisible group"

/-- The message for a token left over in a group. -/
def leftOver : Delimiter → String
  | .parenthesis => "unexpected token, expected " ++ quoted ")"
  | .bracket => "unexpected token, expected " ++ quoted "]"
  | .brace => "unexpected token, expected " ++ quoted "\x7d"
  | .invisible => "unexpected token"

/-- The fault of leaving a group before its end, if any visible tree is left in it. -/
def stray? (d : Delimiter) (ts : List TokenTree) : Option Fault :=
  match TokenTree.front ts with
  | [] => none
  | .leaf ⟨.lifetime _, span⟩ :: _ =>
    some ⟨leftOver d, Place.ofSpan (span.map Span.first), false⟩
  | t :: _ => some ⟨leftOver d, Place.ofSpan t.span, false⟩

/-- A fault at the end of a group is about its closing delimiter. -/
def Fault.closeBy (span : Option Span) (f : Fault) : Fault :=
  if f.atEnd then { f with place := Place.ofSpan (span.map Span.last), atEnd := false } else f

/-- Reads the content of a group that was taken off the stream. -/
def content {α : Type} (d : Delimiter) (span : Option Span) (body after : List TokenTree)
    (p : Parser α) : Parser α := fun s =>
  match p { rest := body, stray := s.stray } with
  | .error f => .error (Fault.closeBy span f)
  | .ok (a, inner) =>
    .ok (a, { rest := after, stray := inner.stray.orElse fun _ => stray? d inner.rest })

/-- Reads a delimited group and its content. -/
def within {α : Type} (d : Delimiter) (p : Parser α) : Parser (Option Span × α) := do
  match TokenTree.front (← get).rest with
  | .group e span body :: after =>
    if d = e then return (span, ← content d span body after p) else fail (missingGroup d)
  | _ => fail (missingGroup d)

/-- Reads an invisible group and its content. -/
def fragment {α : Type} (p : Parser α) : Parser (Option Span × α) := do
  match (← get).rest with
  | .group .invisible span body :: after => return (span, ← content .invisible span body after p)
  | _ => fail (missingGroup .invisible)

/-- Reads a visible group without looking into it. -/
def anyGroup : Parser (Delimiter × Option Span × List TokenTree) := do
  match (← get).rest with
  | .group .invisible _ _ :: _ => fail "expected delimiter"
  | .group d span body :: after =>
    modify fun s => { s with rest := after }
    return (d, span, body)
  | _ => fail "expected delimiter"

/-- Reads all that is left. -/
def everything : Parser (List TokenTree) := do
  let ts := (← get).rest
  modify fun s => { s with rest := [] }
  return ts

/-! ### Trying and repeating -/

/-- Reads with `p` if it succeeds, and nothing otherwise. -/
def attempt {α : Type} (p : Parser α) : Parser (Option α) := fun s =>
  match p s with
  | .ok (a, t) => .ok (some a, t)
  | .error _ => .ok (none, s)

/-- Whether `p` would succeed. -/
def wouldSucceed {α : Type} (p : Parser α) : Parser Bool := fun s =>
  match p s with
  | .ok _ => .ok (true, s)
  | .error _ => .ok (false, s)

/-- Reads with `p` as a trial: the result, without moving. -/
def trial {α : Type} (p : Parser α) : Parser α := fun s =>
  match p s with
  | .ok (a, _) => .ok (a, s)
  | .error f => .error f

/-- What a step of a loop decides. -/
inductive Turn (σ β : Type) where
  /-- Go on. -/
  | more (state : σ)
  /-- Stop. -/
  | done (result : β)

/-- Repeats a step, at most as often as the first argument says. -/
def iterate {σ β : Type} (step : σ → Parser (Turn σ β)) : Nat → σ → Parser β
  | 0, _ => fail "too deep"
  | n + 1, s => do
    match ← step s with
    | .done b => return b
    | .more t => iterate step n t

/-- Repeats a step until it decides to stop. Every step but the last reads a token. -/
def loop {σ β : Type} (start : σ) (step : σ → Parser (Turn σ β)) : Parser β := do
  iterate step (TokenTree.totalWeight (← get).rest + 2) start

/-- Reads phrases with `p` until the stream is done. -/
def untilDone {α : Type} (p : Parser α) : Parser (List α) :=
  loop [] fun acc => do
    if ← isDone then return .done acc.reverse
    return .more ((← p) :: acc)

/-- Reads phrases separated by `separator` until `stop`; a separator may follow the last one. -/
def separatedUntil {α : Type} (separator : String) (stop : Parser Bool) (p : Parser α) :
    Parser (List (α × Option Token)) :=
  loop [] fun acc => do
    if ← stop then return .done acc.reverse
    let a ← p
    if ← stop then return .done ((a, none) :: acc).reverse
    let t ← mark separator
    return .more ((a, some t) :: acc)

/-- Reads phrases separated by commas until the stream is done. -/
def commaSeparated {α : Type} (p : Parser α) : Parser (List (α × Option Token)) :=
  separatedUntil "," isDone p

/-- The tokens read since the stream was at `start`, as they were written. -/
def readSince (start : List TokenTree) : Parser (List TokenTree) := do
  let left := TokenTree.visible (← get).rest
  return TokenTree.takeVisible (TokenTree.visible start - left) start

/-- The stream at this point. -/
def position : Parser (List TokenTree) := return (← get).rest

/-- Parses a whole stream. -/
def run {α : Type} (p : Parser α) (ts : List TokenTree) : Except Fault α :=
  match p { rest := ts, stray := none } with
  | .error f => .error f
  | .ok (a, s) =>
    match s.stray.orElse fun _ => stray? .invisible s.rest with
    | some f => .error f
    | none => .ok a

end Parser

end Memoize
