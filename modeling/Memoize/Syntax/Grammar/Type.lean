import Memoize.Syntax.Grammar.Path

/-!
# Types

The forms of types. A fragment that was substituted as a whole is a type of its own, but it can be
continued as a path.
-/

namespace Memoize.Syntax

open Parser

namespace ParsedType

/-- A type of no particular shape. -/
def plain (p : Phrase) : ParsedType := ⟨p, .other⟩

/-- A type by its path. -/
def ofPath (qualifier : Option Qualifier) (p : Path) : ParsedType :=
  match qualifier with
  | none => ⟨p.type, .path none p⟩
  | some q => ⟨.seq (q.phrases p), .path (some q) p⟩

end ParsedType

/-- A type that begins with a fragment. -/
def fragmentType (g : Grammar) (allowArgs : Bool) : Parser ParsedType := do
  let (span, inner) ← fragment (g.type true true)
  let whole : ParsedType := ⟨.wrapped .invisible span inner.phrase, .fragment inner.shape⟩
  let colons ← peek (isSign "::")
  if colons && (← peek3 isAnyName) then
    match inner.shape with
    | .path q p => return .ofPath q (← moreSegments g false p)
    | _ =>
      let angle (c : Char) : Token := ⟨.mark c false, span⟩
      let p ← path g false
      return .ofPath (some ⟨angle '<', inner.phrase, none, 0, angle '>'⟩) p
  else if (allowArgs && (← peek (isSign "<"))) || (colons && (← peek3 (isSign "<"))) then
    match inner.shape with
    | .path q p =>
      if p.last.args.isNone then
        let colons ← sign? "::"
        let p := p.setLastArgs (← angleArgs g (colons.getD []))
        return .ofPath q (← moreSegments g false p)
      else return whole
    | _ => return whole
  else return whole

/-- Further bounds after a plus sign, as long as one follows. -/
def moreBounds (g : Grammar) : Parser (List Phrase × Nat × Bool) := do
  loop (([] : List Phrase), 0) fun (acc, n) => do
    match ← mark? "+" with
    | some plus =>
      let b ← g.bound false false
      return .more (b.phrase :: .word plus :: acc, n + 1)
    | none => return .done (acc.reverse, n, false)

/-- Fails unless one of the bounds of an object type is a trait. -/
def requireTrait (first : List TokenTree) (message : String) (bs : List (Bound × Option Token)) :
    Parser Unit :=
  if bs.any (·.1.isTrait) then return
  else
    let lasts := (bs.getLast?.map fun b => b.1.phrase.tokens).getD []
    failAt message (first ++ lasts)

/-- The bounds of an object type, after the word that announces it. -/
def objectBounds (g : Grammar) (first : List TokenTree) (allowPlus : Bool) :
    Parser (List (Bound × Option Token)) := do
  let bs ← bounds g allowPlus false false
  requireTrait first "at least one trait is required for an object type" bs
  return bs

/-- The shape of an object type without `dyn`. -/
def objectShape (bs : List (Bound × Option Token)) : TypeShape :=
  .bounds bs.length (bs.getLast?.any (·.2.isSome))

/-- An object type, with or without `dyn`. -/
def objectType (g : Grammar) (allowPlus : Bool) : Parser ParsedType := do
  let start ← position
  let dyn? ← keyword? "dyn"
  let first : List TokenTree :=
    match dyn? with
    | some t => [.leaf t]
    | none => (TokenTree.front start).take 1
  let bs ← objectBounds g first allowPlus
  return ⟨.seq [.ofToken? dyn?, boundPhrase bs], if dyn?.isSome then .other else objectShape bs⟩

/-- A type that begins with a parenthesis: a tuple, a type in parentheses, or bounds the first of
which is. -/
def parenType (g : Grammar) (allowPlus : Bool) : Parser ParsedType := do
  let (span, inner) ← within .parenthesis do
    if ← isDone then return Sum.inl (ParsedType.plain .empty, false)
    else if ← peek isLifetime then return .inl (← objectType g true, true)
    else if ← peek (isSign "?") then
      match ← traitBound g false with
      | some p => return .inr p
      | none => fail "expected identifier"
    else
      let first ← g.type true true
      if ← peek (isSign ",") then
        let comma ← mark ","
        let more ← commaSeparated g.anyType
        return .inl (.plain (.ofSeparated ((first.phrase, some comma) :: more)), false)
      else return .inl (first, true)
  match inner with
  | .inr p =>
    let (more, n, trailing) ← moreBounds g
    return ⟨.seq (.group .parenthesis span [p] :: more), .bounds (n + 1) trailing⟩
  | .inl (content, false) =>
    return .plain (.group .parenthesis span [content.phrase])
  | .inl (content, true) =>
    let joinable :=
      match content.shape with
      | .path none _ => true
      | .bounds 1 false => true
      | _ => false
    if allowPlus && joinable && (← peek (isSign "+")) then
      let first : Phrase :=
        match content.shape with
        | .path none p => p.phrase
        | _ => content.phrase
      let (more, n, trailing) ← moreBounds g
      return ⟨.seq (.group .parenthesis span [first] :: more), .bounds (n + 1) trailing⟩
    else return .plain (.wrapped .parenthesis span content.phrase)

/-- The calling convention of a function: `extern` and an optional text. -/
def linkage : Parser Phrase := do
  match ← keyword? "extern" with
  | none => return .empty
  | some t =>
    if ← peek (isLiteralOf [.text]) then
      return .ofTokens [t, ← literalOf [.text] "expected string literal"]
    else return .word t

/-- A parameter of a function type. -/
def bareParam (g : Grammar) (isFirst : Bool) : Parser Phrase := do
  let attributes ← outerAttributes g
  let start ← position
  let mutSelf :=
    isFirst && isKeyword "mut" start && isKeyword "self" (next start)
  if mutSelf then let _ ← keyword "mut"
  let named : Peek := fun ts => isName ts || isKeyword "_" ts || (isFirst && isKeyword "self" ts)
  let label ←
    if (← peek named) && (← peek2 (isSign ":")) && !(← peek2 (isSign "::")) then
      let n ← anyName
      let colon ← mark ":"
      pure (some [n, colon])
    else pure none
  if mutSelf then
    if label.isNone then let _ ← keyword "self"
    else let _ ← g.type true true
    return .seq [Attribute.all attributes, .raw (← readSince start)]
  else
    let type ← g.anyType
    return .seq [Attribute.all attributes, .ofTokens (label.getD []), type]

/-- The open end of the parameters of a function type. -/
def bareVariadic (attributes : List Attribute) : Parser Phrase := do
  let label ←
    if ← peek (fun ts => isName ts || isKeyword "_" ts) then
      let n ← anyName
      pure [n, ← mark ":"]
    else pure []
  let dots ← sign "..."
  let comma ← mark? ","
  return .seq [Attribute.all attributes, .ofTokens label, .ofTokens dots, .ofToken? comma]

/-- Whether the open end of a parameter list comes next. -/
def opensVariadic : Parser Bool := do
  return (← peek (isSign "...")) ||
    ((← peek (fun ts => isName ts || isKeyword "_" ts)) && (← peek2 (isSign ":")) &&
      (← peek3 (isSign "...")))

/-- A function type, after the parameters that bind its lifetimes. -/
def bareFnType (g : Grammar) (lifetimes : List Phrase) : Parser ParsedType := do
  let unsafety ← keyword? "unsafe"
  let abi ← linkage
  let fn ← keyword "fn"
  let (span, params) ← within .parenthesis <|
    loop (([] : List Phrase), true) fun (acc, isFirst) => do
      if ← isDone then return .done acc.reverse
      let attributes ← outerAttributes g
      if ← opensVariadic then
        return .done ((← bareVariadic attributes) :: acc).reverse
      let p ← bareParam g isFirst
      let p : Phrase := .seq [Attribute.all attributes, p]
      if ← isDone then return .done (p :: acc).reverse
      return .more (.word (← mark ",") :: p :: acc, false)
  let output ← tightResult g
  return .plain (.shielded (lifetimes ++ [.ofToken? unsafety, abi, .word fn,
    .group .parenthesis span params] ++ output))

/-- A type that begins with a path: the path itself, a macro call, or bounds. -/
def pathType (g : Grammar) (lifetimes : List Phrase) (allowPlus : Bool) : Parser ParsedType := do
  let (q, p) ← qualifiedPath g false
  if q.isSome then return .ofPath q p
  if ← callsMacro q p then
    let (_, args) ← macroArgs
    return .plain (.seq (p.phrase :: args))
  if !lifetimes.isEmpty || (allowPlus && (← peek (isSign "+"))) then
    let more ←
      if allowPlus then
        loop (([] : List Phrase), 1) fun (acc, n) => do
          match ← mark? "+" with
          | none => return .done (acc.reverse, n, false)
          | some plus =>
            if ← peek opensBound then
              let b ← g.bound false false
              return .more (b.phrase :: .word plus :: acc, n + 1)
            else return .done ((.word plus :: acc).reverse, n, true)
      else pure ([], 1, false)
    return ⟨.seq (lifetimes ++ p.phrase :: more.1), .bounds more.2.1 more.2.2⟩
  return .ofPath none p

/-- An `impl` type. -/
def implType (g : Grammar) (allowPlus : Bool) : Parser ParsedType := do
  let impl ← keyword "impl"
  let bs ← bounds g allowPlus true true
  requireTrait [.leaf impl] "at least one trait must be specified" bs
  return .plain (.implTrait [.word impl, boundPhrase bs])

/-- A reference type; a plus sign after it belongs to what is around it. -/
def referenceType (g : Grammar) : Parser ParsedType := do
  let amp ← mark "&"
  let region ← if ← peek isLifetime then some <$> lifetime else pure none
  let mut? ← keyword? "mut"
  let target ← g.tightType
  return .plain (.reference amp region mut? target)

/-- A pointer type. -/
def pointerType (g : Grammar) : Parser ParsedType := do
  let star ← mark "*"
  let access ←
    if ← peek (isKeyword "const") then keyword "const"
    else if ← peek (isKeyword "mut") then keyword "mut"
    else failExpected ["`const`", "`mut`"]
  let target ← g.tightType
  return .plain (.seq [.word star, .word access, target])

/-- A slice or array type. -/
def bracketType (g : Grammar) : Parser ParsedType := do
  let (span, parts) ← within .bracket do
    let element ← g.anyType
    match ← mark? ";" with
    | some semi => return [element, .word semi, ← g.anyExpr]
    | none => return [element]
  return .plain (.group .bracket span parts)

/-- The words that may follow the parameters bound by `for<…>` in a type. -/
def afterBinder : Peek := fun ts =>
  isName ts || isKeywordOf ["fn", "unsafe", "extern", "super", "self", "Self", "crate"] ts

/-- A type. -/
def type (g : Grammar) (allowPlus allowArgs : Bool) : Parser ParsedType := do
  let start ← position
  if ← peek isFragment then return ← fragmentType g allowArgs
  let lifetimes ← binder? g
  if !lifetimes.isEmpty && !(← peek afterBinder) then
    failExpected ["identifier", "`fn`", "`unsafe`", "`extern`", "`super`", "`self`", "`Self`",
      "`crate`"]
  if ← peek (isGroup .parenthesis) then parenType g allowPlus
  else if ← peek (isKeywordOf ["fn", "unsafe", "extern"]) then bareFnType g lifetimes
  else if ← peek (fun ts => isPathWord ts || isSign "::" ts || isSign "<" ts) then
    pathType g lifetimes allowPlus
  else if ← peek (isKeyword "dyn") then
    let dyn ← keyword "dyn"
    let star ← mark? "*"
    let bs ← objectBounds g [.leaf dyn] allowPlus
    if star.isSome then return .plain (.raw (← readSince start))
    else return .plain (.seq [.word dyn, boundPhrase bs])
  else if ← peek (isGroup .bracket) then bracketType g
  else if ← peek (isSign "*") then pointerType g
  else if ← peek (isSign "&") then referenceType g
  else if ← peek (isSign "!") then return .plain (.word (← mark "!"))
  else if ← peek (isKeyword "impl") then implType g allowPlus
  else if ← peek (isKeyword "_") then return .plain (.hole (← anyName))
  else if ← peek isLifetime then objectType g true
  else failExpected (if lifetimes.isEmpty then
    ["`for`", "parentheses", "`fn`", "`unsafe`", "`extern`", "identifier", "`::`", "`<`", "`dyn`",
     "square brackets", "`*`", "`&`", "`!`", "`impl`", "`_`", "lifetime"]
    else ["identifier"])

end Memoize.Syntax
