import Memoize.Syntax.Grammar.Basic

/-!
# Attributes

Attributes stand before what they are about (`#[…]`) or at the beginning of what they are inside of
(`#![…]`).
-/

namespace Memoize.Syntax

open Parser

/-- The words that may stand in a path without arguments. -/
def isPathWord : Peek := fun ts =>
  isName ts || isKeywordOf ["super", "self", "Self", "crate"] ts

/-- A path without arguments. -/
def plainPath : Parser Path := do
  let leading ← sign? "::"
  let start ← position
  let step (acc : List (List Token × Segment) × List Token) :
      Parser (Turn (List (List Token × Segment) × List Token) (List (List Token × Segment))) := do
    if ← peek isPathWord then
      let n ← anyName
      let acc' := (acc.2, (⟨n, .none⟩ : Segment)) :: acc.1
      if ← peek (isSign "::") then return .more (acc', ← sign "::") else return .done acc'.reverse
    else if acc.1.isEmpty then
      let n ← name
      return .done [([], ⟨n, .none⟩)]
    else fail "expected path segment after `::`"
  match ← loop ([], []) step with
  | (_, head) :: tail => return ⟨leading.getD [], head, tail⟩
  | [] => failAt "expected identifier" start

/-- A path at the beginning of an attribute. -/
def attributePath : Parser Path := do
  match ← keyword? "unsafe" with
  | some t => return .ofName t
  | none => plainPath

/-- A value that is a literal and nothing else, or any expression. -/
def attributeValue (g : Grammar) : Parser Expr := do
  let lone ← attempt do
    let ts ← literal
    if ← isDone then return ts else fail "expected literal"
  match lone with
  | some ts => return .plain (.literal ts) [.ofTokens ts]
  | none =>
    if (← peek (isSign "#")) && (← peek2 (isGroup .bracket)) then
      fail "unexpected attribute inside of attribute"
    else g.expr true

/-- Whether a delimited list comes next. -/
def isList : Peek := fun ts =>
  isGroup .parenthesis ts || isGroup .bracket ts || isGroup .brace ts

/-- The content of an attribute. -/
def attributeContent (g : Grammar) : Parser (Path × AttributeArgs) := do
  let path ← attributePath
  if ← peek isList then
    let (d, span, body) ← anyGroup
    return (path, .list d span body)
  else if ← peek (isSign "=") then
    let equals ← sign "="
    let value ← attributeValue g
    return (path, .value equals value.phrase)
  else return (path, .none)

/-- One attribute after its marks. -/
def attributeAfter (g : Grammar) (marks : List Token) : Parser Attribute := do
  let (span, path, args) ← within .bracket (attributeContent g)
  return ⟨marks, span, path, args⟩

/-- One attribute before what it is about. -/
def outerAttribute (g : Grammar) : Parser Attribute := do
  attributeAfter g (← sign "#")

/-- The attributes before an item or an expression. -/
def outerAttributes (g : Grammar) : Parser (List Attribute) :=
  loop [] fun acc => do
    if ← peek (isSign "#") then return .more ((← outerAttribute g) :: acc)
    else return .done acc.reverse

/-- The attributes at the beginning of what they are inside of. -/
def innerAttributes (g : Grammar) : Parser (List Attribute) :=
  loop [] fun acc => do
    if (← peek (isSign "#")) && (← peek2 (isSign "!")) then
      let pound ← sign "#"
      let bang ← sign "!"
      return .more ((← attributeAfter g (pound ++ bang)) :: acc)
    else return .done acc.reverse

/-- The attributes before an expression; those in a fragment are the fragment's. -/
def exprAttributes (g : Grammar) : Parser (List Attribute) :=
  loop [] fun acc => do
    if !(← peek isFragment) && (← peek (isSign "#")) then
      return .more ((← outerAttribute g) :: acc)
    else return .done acc.reverse

/-- A block without attributes of its own. -/
def bareBlock (g : Grammar) : Parser Phrase := do
  let (span, stmts) ← within .brace g.statements
  return .group .brace span (stmts.map (·.phrase))

/-- A block that may begin with attributes. -/
def block (g : Grammar) : Parser Phrase := do
  let (span, inner, stmts) ← within .brace do
    let inner ← innerAttributes g
    return (inner, ← g.statements)
  return .group .brace span (Attribute.all inner :: stmts.map (·.phrase))

end Memoize.Syntax
