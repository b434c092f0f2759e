import Memoize.Syntax.Grammar.Type

/-!
# Patterns

The forms of patterns. A pattern comes with the names it binds.
-/

namespace Memoize.Syntax

open Parser

namespace ParsedPattern

/-- A pattern of no particular shape. -/
def plain (parts : List Phrase) (binds : List String) : ParsedPattern :=
  ⟨⟨.seq parts, none, binds⟩, false, false⟩

end ParsedPattern

/-- Patterns with the separators after them, as one phrase. -/
def patternList (ps : List (ParsedPattern × Option Token)) : Phrase :=
  .ofSeparated (ps.map fun p => (p.1.pattern.phrase, p.2))

/-- The names bound by patterns. -/
def patternNames (ps : List (ParsedPattern × Option Token)) : List String :=
  ps.flatMap fun p => p.1.pattern.binds

/-- Whether an or-bar comes next, and not a longer sign. -/
def isBar : Peek := fun ts => isSign "|" ts && !isSign "||" ts && !isSign "|=" ts

/-- The alternatives of a pattern, separated by bars; `leading` is the bar before the first. -/
def alternatives (g : Grammar) (leading : Option Token) : Parser ParsedPattern := do
  let first ← g.pattern
  if leading.isNone && !(← peek isBar) then return first
  let parts : List Phrase := [first.pattern.phrase, .ofToken? leading]
  let (parts, binds) ← loop (parts, first.pattern.binds) fun (acc, names) => do
    if ← peek isBar then
      let bar ← mark "|"
      let p ← g.pattern
      return .more (p.pattern.phrase :: .word bar :: acc, names ++ p.pattern.binds)
    else return .done (acc.reverse, names)
  return .plain parts binds

/-- A pattern with alternatives, possibly after a bar. -/
def patterns (g : Grammar) : Parser ParsedPattern := do
  alternatives g (← mark? "|")

/-- The sign of a range: the tokens it is printed with, and whether the end is included. `allowOld`
admits three dots for an included end. -/
def rangeSign (allowOld : Bool) : Parser (List Token × Bool) := do
  if ← peek (isSign "..=") then return (← sign "..=", true)
  else if (← peek (isSign "...")) then
    if allowOld then
      let dots ← sign "..."
      let renew (t : Token) (c : Char) (joint : Bool) : Token := ⟨.mark c joint, t.span⟩
      match dots with
      | [a, b, c] => return ([renew a '.' true, renew b '.' true, renew c '=' false], true)
      | ts => return (ts, true)
    else failExpected ["`..`", "`..=`"]
  else if ← peek (isSign "..") then return (← sign "..", false)
  else failExpected ["`..`"]

/-- A path as an expression. -/
def pathExpr (q : Option Qualifier) (p : Path) : Phrase :=
  match q with
  | none => p.phrase
  | some q => .seq (q.phrases p)

/-- What ends a range pattern without an upper bound. -/
def endsRangePattern : Peek := fun ts =>
  ts.isEmpty || isSign "|" ts || isSign "=" ts || (isSign ":" ts && !isSign "::" ts) ||
    isSign "," ts || isSign ";" ts || isKeyword "if" ts

/-- The bound of a range pattern, if there is one. -/
def rangeBound (g : Grammar) : Parser (Option Phrase) := do
  if ← peek endsRangePattern then return none
  if ← peek isLiteral then return some (.ofTokens (← literal))
  if ← peek (fun ts => isPathWord ts || isSign "::" ts || isSign "<" ts) then
    let (q, p) ← qualifiedPath g true
    return some (pathExpr q p)
  if ← peek (isKeyword "const") then
    let const ← keyword "const"
    return some (.seq [.word const, ← block g])
  failExpected ["literal", "identifier", "`::`", "`<`", "`self`", "`Self`", "`super`", "`crate`",
    "`const`"]

/-- A range pattern from its lower bound on. -/
def rangeFrom (g : Grammar) (lower : Phrase) : Parser ParsedPattern := do
  let (dots, closed) ← rangeSign true
  let upper ← rangeBound g
  if closed && upper.isNone then fail "expected range upper bound"
  return ⟨⟨.seq [lower, .ofTokens dots, .ofOption upper], none, []⟩, false, upper.isNone⟩

/-- A range pattern without a lower bound, or the rest of a sequence. -/
def rangeTo (g : Grammar) : Parser ParsedPattern := do
  let (dots, closed) ← rangeSign false
  let upper ← rangeBound g
  if closed && upper.isNone then fail "expected range upper bound"
  return ⟨⟨.seq [.ofTokens dots, .ofOption upper], none, []⟩, upper.isNone, upper.isSome⟩

/-- A field of a struct: a name or an index. -/
def member : Parser (Token × Bool) := do
  if ← peek isName then return (← name, true)
  else if ← peek (isLiteralOf [.whole]) then
    let t ← literalOf [.whole] "expected integer literal"
    match Literal.wholeValue? t.word.text with
    | some (n, "") =>
      if n < 4294967296 then return (⟨.literal (toString n), t.span⟩, false)
      else failAt "number too large to fit in target type" [.leaf t]
    | _ => failAt "expected unsuffixed integer" [.leaf t]
  else fail "expected identifier or integer"

/-- The pattern of a struct field. -/
def fieldPattern (g : Grammar) : Parser (Phrase × List String) := do
  let start ← position
  let boxed ← keyword? "box"
  let byRef ← keyword? "ref"
  let mut? ← keyword? "mut"
  let marked := boxed.isSome || byRef.isSome || mut?.isSome
  let (m, named) ← if marked then pure (← name, true) else member
  if (!marked && (← peek (isSign ":"))) || !named then
    let colon ← mark ":"
    let p ← g.patterns
    return (.seq [.word m, .word colon, p.pattern.phrase], p.pattern.binds)
  else if boxed.isSome then return (.raw (← readSince start), [m.name])
  else return (.seq [.ofToken? byRef, .ofToken? mut?, .word m], [m.name])

/-- The fields of a struct pattern. -/
def structPattern (g : Grammar) (head : Phrase) : Parser ParsedPattern := do
  let (span, parts, names) ← within .brace <|
    loop (([] : List Phrase), ([] : List String)) fun (acc, names) => do
      if ← isDone then return .done (acc.reverse, names)
      let attributes ← outerAttributes g
      if ← peek (isSign "..") then
        let dots ← sign ".."
        return .done ((.ofTokens dots :: Attribute.all attributes :: acc).reverse, names)
      let (p, binds) ← fieldPattern g
      let acc := p :: Attribute.all attributes :: acc
      if ← isDone then return .done (acc.reverse, names ++ binds)
      let comma ← mark ","
      return .more (.word comma :: acc, names ++ binds)
  return .plain [head, .group .brace span parts] names

/-- A pattern that begins with a path. -/
def pathPattern (g : Grammar) : Parser ParsedPattern := do
  let (q, p) ← qualifiedPath g true
  if ← callsMacro q p then
    let (_, args) ← macroArgs
    return .plain (p.phrase :: args) []
  let head := pathExpr q p
  if ← peek (isGroup .brace) then structPattern g head
  else if ← peek (isGroup .parenthesis) then
    let (span, ps) ← within .parenthesis (commaSeparated g.patterns)
    return .plain [head, .group .parenthesis span [patternList ps]] (patternNames ps)
  else if ← peek (isSign "..") then rangeFrom g head
  else return .plain [head] []

/-- A pattern that binds a name. -/
def namePattern (g : Grammar) : Parser ParsedPattern := do
  let byRef ← keyword? "ref"
  let mut? ← keyword? "mut"
  let n ← if ← peek (isKeyword "self") then anyName else name
  let phrase : List Phrase := [.ofToken? byRef, .ofToken? mut?, .word n]
  if ← peek (isSign "@") then
    let at_ ← mark "@"
    let p ← g.pattern
    return .plain (phrase ++ [.word at_, p.pattern.phrase]) (n.name :: p.pattern.binds)
  else
    return ⟨⟨.seq phrase, if byRef.isSome then none else some n, [n.name]⟩, false, false⟩

/-- A pattern that is a literal, or a range from one. -/
def literalPattern (g : Grammar) : Parser ParsedPattern := do
  match ← rangeBound g with
  | none => fail "expected literal"
  | some p => if ← peek (isSign "..") then rangeFrom g p else return .plain [p] []

/-- A pattern in parentheses, or a tuple of patterns. -/
def parenPattern (g : Grammar) : Parser ParsedPattern := do
  let (span, ps) ← within .parenthesis (commaSeparated g.patterns)
  return .plain [.group .parenthesis span [patternList ps]] (patternNames ps)

/-- A sequence of patterns. A range with an open end needs parentheses here. -/
def slicePattern (g : Grammar) : Parser ParsedPattern := do
  let (span, ps) ← within .bracket <| commaSeparated do
    let p ← g.patterns
    if p.isOpenRange then
      failAt "range pattern is not allowed unparenthesized inside slice pattern"
        p.pattern.phrase.tokens
    else return p
  return .plain [.group .bracket span [patternList ps]] (patternNames ps)

/-- Whether a pattern begins with a path that is more than a name. -/
def opensPath (ts : List TokenTree) : Bool :=
  let after := next ts
  (isName ts && (isSign "::" after || isSign "!" after || isGroup .brace after ||
      isGroup .parenthesis after || isSign ".." after)) ||
    (isKeyword "self" ts && isSign "::" after) ||
    isSign "::" ts || isSign "<" ts || isKeywordOf ["Self", "super", "crate"] ts

/-- A pattern without alternatives. -/
def pattern (g : Grammar) : Parser ParsedPattern := do
  let start ← position
  if opensPath start then pathPattern g
  else if ← peek (isKeyword "_") then return .plain [.word (← anyName)] []
  else if ← peek (isKeyword "box") then
    let _ ← keyword "box"
    let p ← g.pattern
    return .plain [.raw (← readSince start)] p.pattern.binds
  else if (← peek (isSign "-")) || (← peek isLiteral) || (← peek (isKeyword "const")) then
    literalPattern g
  else if (← peek (isKeywordOf ["ref", "mut", "self"])) || (← peek isName) then namePattern g
  else if ← peek (isSign "&") then
    let amp ← mark "&"
    let mut? ← keyword? "mut"
    let p ← g.pattern
    return .plain [.word amp, .ofToken? mut?, p.pattern.phrase] p.pattern.binds
  else if ← peek (isGroup .parenthesis) then parenPattern g
  else if ← peek (isGroup .bracket) then slicePattern g
  else if (← peek (isSign "..")) && !(← peek (isSign "...")) then rangeTo g
  else failExpected ["identifier", "`::`", "`<`", "`_`", "literal", "`const`", "`ref`", "`mut`",
    "`&`", "parentheses", "square brackets", "`..`"]

end Memoize.Syntax
