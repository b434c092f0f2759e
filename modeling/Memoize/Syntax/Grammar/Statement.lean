import Memoize.Syntax.Grammar.Expression

/-!
# Statements

The statements of a block. A statement that is an item declares the names of the item in the block.
-/

namespace Memoize.Syntax

open Parser

/-- Whether a phrase ends in a brace, so that `else` would belong to it. -/
def endsInBrace (p : Phrase) : Bool :=
  match p.tokens.getLast? with
  | some (.group .brace _ _) => true
  | _ => false

/-- A binding of names. -/
def letStatement (g : Grammar) (attributes : List Attribute) : Parser Statement := do
  let let_ ← keyword "let"
  let p ← g.pattern
  let type ← match ← mark? ":" with
    | some colon => pure [.word colon, ← g.anyType]
    | none => pure []
  let value ← match ← mark? "=" with
    | none => pure []
    | some equals =>
      let e ← g.expr true
      if !endsInBrace e.phrase && (← peek (isKeyword "else")) then
        let else_ ← keyword "else"
        pure [.word equals, e.phrase, .word else_, ← bareBlock g]
      else pure [.word equals, e.phrase]
  let semi ← mark ";"
  return .silent (Attribute.all attributes :: .word let_ :: p.pattern.phrase :: type ++ value ++
    [.word semi])

/-- The path of a macro call in braces that stands for a statement of its own, and whether a macro
is called with a name, as an item. -/
def macroStatement? (ts : List TokenTree) : Parser (Option Path × Bool) := do
  match ← attempt plainPath with
  | none => return (none, false)
  | some p =>
    let rest ← position
    let restore : Parser Unit := modify fun s => { s with rest := ts }
    if isSign "!" rest then
      let second := next rest
      let third := next second
      if isName second || isKeyword "try" second then
        restore
        return (none, true)
      else if isGroup .brace second &&
          !((isSign "." third && !isSign ".." third) || isSign "?" third) then
        return (some p, false)
    restore
    return (none, false)

/-- Whether an item comes next, in a block. -/
def opensItem : Peek := fun ts =>
  let second := next ts
  let third := next second
  isKeyword "pub" ts || (isKeyword "crate" ts && !isSign "::" second) || isKeyword "extern" ts ||
    isKeyword "use" ts ||
    (isKeyword "static" ts && (isKeyword "mut" second ||
      (isName second &&
        !(isKeyword "async" second && (isKeyword "move" third || isSign "|" third))))) ||
    (isKeyword "const" ts && !(isGroup .brace second || isKeyword "static" second ||
      (isKeyword "async" second && !isKeywordOf ["unsafe", "extern", "fn"] third) ||
      isKeyword "move" second || isSign "|" second)) ||
    (isKeyword "unsafe" ts && !isGroup .brace second) ||
    (isKeyword "async" ts && isKeywordOf ["unsafe", "extern", "fn"] second) ||
    isKeywordOf ["fn", "mod", "type", "struct", "enum", "trait", "impl", "macro"] ts ||
    (isKeyword "union" ts && isName second) ||
    (isKeyword "auto" ts && isKeyword "trait" second) ||
    (isKeyword "default" ts && isKeywordOf ["unsafe", "impl"] second)

/-- An expression as a statement. -/
def exprStatement (g : Grammar) (attributes : List Attribute) : Parser (Statement × Bool) := do
  let e ← g.early
  let e := e.attach attributes
  match ← mark? ";" with
  | some semi => return (.silent [e.phrase, .word semi], false)
  | none => return (.silent [e.phrase], needsSemicolon e.kind)

/-- A statement, and whether only the end of the block may follow it. -/
def statement (g : Grammar) : Parser (Statement × Bool) := do
  let start ← position
  let attributes ← outerAttributes g
  let ts ← position
  let (call, isItemMacro) ← macroStatement? ts
  match call with
  | some p =>
    let (_, args) ← macroArgs
    let semi ← mark? ";"
    return (.silent (Attribute.all attributes :: p.phrase :: args ++ [.ofToken? semi]), false)
  | none =>
    if isKeyword "let" ts && !isFragment ts then
      return (← letStatement g attributes, false)
    else if opensItem ts || isItemMacro then
      modify fun s => { s with rest := start }
      let item ← g.item
      return (⟨item.phrase, item.declares⟩, false)
    else exprStatement g attributes

/-- The statements of a block, to its end. -/
def statements (g : Grammar) : Parser (List Statement) :=
  loop ([] : List Statement) fun acc => do
    match ← mark? ";" with
    | some semi => return .more (.silent [.word semi] :: acc)
    | none =>
      if ← isDone then return .done acc.reverse
      let (s, last) ← statement g
      let acc := s :: acc
      if ← isDone then return .done acc.reverse
      else if last then fail "unexpected token, expected `;`"
      else return .more acc

end Memoize.Syntax
