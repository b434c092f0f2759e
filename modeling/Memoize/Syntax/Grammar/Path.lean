import Memoize.Syntax.Grammar.Attribute

/-!
# Paths, arguments and bounds

Paths with arguments, in types and in expressions, and the trait bounds of type parameters.
-/

namespace Memoize.Syntax

open Parser

/-- Entries that are lifetimes or not, as phrases for a list. -/
def entries (es : List ((Bool × Phrase) × Option Token)) : List Phrase :=
  es.map fun e => .entry e.1.1 e.1.2 e.2

/-! ### Arguments -/

/-- An argument that is a value: a literal or a block. -/
def valueArgument (g : Grammar) : Parser Phrase := do
  if ← peek isLiteral then return .ofTokens (← literal)
  else if ← peek isName then return .word (← name)
  else if ← peek (isGroup .brace) then block g
  else failExpected []

/-- Whether a comma or a closing angle bracket comes next. -/
def endsArgument : Parser Bool := return (← peek (isSign ",")) || (← peek (isSign ">"))

/-- An argument of a path: whether it is a lifetime, and its phrase. -/
def argument (g : Grammar) : Parser (Bool × Phrase) := do
  if (← peek isLifetime) && !(← peek2 (isSign "+")) then return (true, .lifetime (← lifetime))
  if (← peek isLiteral) || (← peek (isGroup .brace)) then return (false, ← valueArgument g)
  let t ← g.type true true
  match t.shape with
  | .path none p =>
    let alone := p.leading.isEmpty && p.tail.isEmpty
    if alone && (← peek (isSign "=")) then
      let equals ← sign "="
      let value ←
        if (← peek isLiteral) || (← peek (isGroup .brace)) then valueArgument g else g.anyType
      return (false, .seq [p.phrase, .ofTokens equals, value])
    else if alone && (← peek (isSign ":")) then
      let colon ← sign ":"
      let bounds ← separatedUntil "+" endsArgument (return (← g.bound false true).phrase)
      return (false, .seq [p.phrase, .ofTokens colon, .ofSeparated bounds])
    else return (false, t.phrase)
  | _ => return (false, t.phrase)

/-- The arguments of a path between angle brackets, after the colons that may precede them. -/
def angleArgs (g : Grammar) (colons : List Token) : Parser SegmentArgs := do
  let opening ← mark "<"
  let args ← separatedUntil "," (peek (isSign ">")) (argument g)
  let closing ← mark ">"
  return .angle colons opening (entries args) closing

/-- The result of a callable, whose bounds are not joined. -/
def tightResult (g : Grammar) : Parser (List Phrase) := do
  match ← sign? "->" with
  | some arrow => return [.ofTokens arrow, ← g.tightType]
  | none => return []

/-- The parameters and result of a callable. -/
def callArgs (g : Grammar) : Parser SegmentArgs := do
  let (span, inputs) ← within .parenthesis (commaSeparated g.anyType)
  let output ← tightResult g
  return .call (.group .parenthesis span [.ofSeparated inputs] :: output)

/-! ### Paths -/

/-- A path segment. In expressions arguments follow a double colon only. -/
def segment (g : Grammar) (inExpr : Bool) : Parser Segment := do
  if ← peek (isKeywordOf ["super", "self", "crate", "try"]) then return ⟨← anyName, .none⟩
  let n ← if ← peek (isKeyword "Self") then anyName else name
  if !inExpr && (← peek (isSign "<")) && !(← peek (isSign "<=")) then
    return ⟨n, ← angleArgs g []⟩
  else if (← peek (isSign "::")) && (← peek3 (isSign "<")) then
    let colons ← sign "::"
    return ⟨n, ← angleArgs g colons⟩
  else return ⟨n, .none⟩

/-- Further segments of a path. Parameters of a callable after a double colon belong to a bound. -/
def moreSegments (g : Grammar) (inExpr : Bool) (p : Path) : Parser Path :=
  loop p fun p => do
    if (← peek (isSign "::")) && !(← peek3 (isGroup .parenthesis)) then
      let colons ← sign "::"
      let s ← segment g inExpr
      return .more { p with tail := p.tail ++ [(colons, s)] }
    else return .done p

/-- A path. -/
def path (g : Grammar) (inExpr : Bool) : Parser Path := do
  let leading ← sign? "::"
  let head ← segment g inExpr
  moreSegments g inExpr ⟨leading.getD [], head, []⟩

/-- A path that may start at a qualified type. -/
def qualifiedPath (g : Grammar) (inExpr : Bool) : Parser (Option Qualifier × Path) := do
  match ← mark? "<" with
  | none => return (none, ← path g inExpr)
  | some opening =>
    let type ← g.anyType
    let as? ← keyword? "as"
    let trait? ← match as? with
      | some _ => some <$> path g false
      | none => pure none
    let closing ← mark ">"
    let colons ← sign "::"
    let rest ← loop (([] : List (List Token × Segment)), colons) fun (acc, colons) => do
      let s ← segment g inExpr
      let acc := (colons, s) :: acc
      if ← peek (isSign "::") then return .more (acc, ← sign "::") else return .done acc.reverse
    match trait?, rest with
    | some p, _ =>
      let q : Qualifier := ⟨opening, type, as?, p.segments.length, closing⟩
      return (some q, { p with tail := p.tail ++ rest })
    | none, (leading, head) :: tail =>
      return (some ⟨opening, type, none, 0, closing⟩, ⟨leading, head, tail⟩)
    | none, [] => fail "expected identifier"

/-- Whether the arguments of a macro call follow a path. -/
def callsMacro (qualifier : Option Qualifier) (p : Path) : Parser Bool := do
  return qualifier.isNone && (← peek (isSign "!")) && !(← peek (isSign "!=")) && p.isPlain

/-- The exclamation mark and the arguments of a macro call, and whether these are in braces. -/
def macroArgs : Parser (Bool × List Phrase) := do
  let bang ← sign "!"
  let (d, span, body) ← anyGroup
  return (d == .brace, [.ofTokens bang, .raw [.group d span body]])

/-! ### Generic parameters -/

/-- A phrase after a colon, which is not printed before nothing. -/
def afterColon (colon : Option Token) (bounds : List (Phrase × Option Token)) : List Phrase :=
  if bounds.isEmpty then [] else [.ofToken? colon, .ofSeparated bounds]

/-- Items joined by `+` while the sign follows; `stop` is looked at before each. -/
def joined {α : Type} (stop : Parser Bool) (p : Parser α) : Parser (List (α × Option Token)) :=
  loop [] fun acc => do
    if ← stop then return .done acc.reverse
    let a ← p
    match ← mark? "+" with
    | some t => return .more ((a, some t) :: acc)
    | none => return .done ((a, none) :: acc).reverse

/-- A lifetime parameter. -/
def lifetimeParam (attributes : List Attribute) : Parser Phrase := do
  let l ← lifetime
  let colon ← mark? ":"
  let bounds ←
    if colon.isSome then joined endsArgument (return Phrase.lifetime (← lifetime)) else pure []
  return .seq (Attribute.all attributes :: .lifetime l :: afterColon colon bounds)

/-- A type parameter. -/
def typeParam (g : Grammar) (attributes : List Attribute) : Parser Phrase := do
  let n ← name
  let colon ← mark? ":"
  let bounds ←
    if colon.isSome then
      joined (return (← endsArgument) || (← peek (isSign "=")))
        (return (← g.bound false true).phrase)
    else pure []
  let default ← match ← sign? "=" with
    | some equals => pure [.ofTokens equals, ← g.anyType]
    | none => pure []
  return .seq (Attribute.all attributes :: .word n :: afterColon colon bounds ++ default)

/-- A constant parameter. -/
def constParam (g : Grammar) (attributes : List Attribute) : Parser Phrase := do
  let const ← keyword "const"
  let n ← name
  let colon ← mark ":"
  let type ← g.anyType
  let default ← match ← sign? "=" with
    | some equals => pure [.ofTokens equals, ← valueArgument g]
    | none => pure []
  return .seq (Attribute.all attributes :: .word const :: .word n :: .word colon :: type :: default)

/-- A generic parameter: whether it is a lifetime, and its phrase. -/
def genericParam (g : Grammar) : Parser (Bool × Phrase) := do
  let attributes ← outerAttributes g
  if ← peek isLifetime then return (true, ← lifetimeParam attributes)
  else if ← peek isName then return (false, ← typeParam g attributes)
  else if ← peek (isKeyword "const") then return (false, ← constParam g attributes)
  else failExpected ["lifetime", "identifier", "`const`"]

/-- The parameters bound by `for<…>`. -/
def binder (g : Grammar) : Parser (List Phrase) := do
  let for_ ← keyword "for"
  let opening ← mark "<"
  let params ← separatedUntil "," (peek (isSign ">")) (return (← genericParam g).2)
  let closing ← mark ">"
  return [.word for_, .word opening, .ofSeparated params, .word closing]

/-- The parameters bound by `for<…>`, if the word `for` comes next. -/
def binder? (g : Grammar) : Parser (List Phrase) := do
  if ← peek (isKeyword "for") then binder g else return []

/-! ### Bounds -/

/-- What may follow a plus sign between bounds. -/
def opensBound : Peek := fun ts =>
  isAnyName ts || isSign "::" ts || isSign "?" ts || isLifetime ts || isGroup .parenthesis ts

/-- The captured parameters of `use<…>`: its first and last token, and its phrase. -/
def capture : Parser (List Token × Phrase) := do
  let use ← keyword "use"
  let opening ← mark "<"
  let isClosing : Peek := isSign ">"
  let params ← loop ([] : List ((Bool × Phrase) × Option Token)) fun acc => do
    if ← peek isClosing then return .done acc.reverse
    let a ←
      if ← peek isLifetime then pure (true, Phrase.lifetime (← lifetime))
      else if (← peek isName) || (← peek (isKeyword "Self")) then
        pure (false, Phrase.word (← anyName))
      else failExpected ["lifetime", "identifier", "`>`"]
    if ← peek (isSign ",") then return .more ((a, some (← mark ",")) :: acc)
    else if ← peek isClosing then return .done ((a, none) :: acc).reverse
    else failExpected ["`,`", "`>`"]
  let closing ← mark ">"
  return ([use, closing],
    .seq [.word use, .word opening, .lifetimesFirst (entries params), .word closing])

/-- Whether the arguments of a callable follow a path. -/
def callFollows : Parser Bool := do
  if ← peek (isGroup .parenthesis) then return true
  else return (← peek (isSign "::")) && (← peek3 (isGroup .parenthesis))

/-- The path of a trait, with the parameters of a callable after its last segment. -/
def traitPath (g : Grammar) : Parser Path := do
  let p ← path g false
  if p.last.args.isEmpty && (← callFollows) then
    let _ ← sign? "::"
    return p.setLastArgs (← callArgs g)
  else return p

/-- A trait bound. The answer is nothing for a bound with written constness, which is kept as it was
written. -/
def traitBound (g : Grammar) (allowConst : Bool) : Parser (Option Phrase) := do
  let first ← binder? g
  let maybeConst ← peek (isGroup .bracket)
  let alwaysConst ← peek (isKeyword "const")
  if maybeConst then
    let (span, _) ← within .bracket (keyword "const")
    if !allowConst then failAt "`[const]` is not allowed here" [.group .bracket span []]
  else if alwaysConst then
    let t ← keyword "const"
    if !allowConst then failAt "`const` is not allowed here" [.leaf t]
  let maybe ← mark? "?"
  let lifetimes ← if first.isEmpty && maybe.isSome then binder? g else pure first
  let p ← traitPath g
  match maybe, lifetimes with
  | some t, _ :: _ =>
    failAt "`for<...>` binder not allowed with `?` trait polarity modifier" [.leaf t]
  | _, _ =>
    if maybeConst || alwaysConst then return none
    else return some (.seq (.ofToken? maybe :: lifetimes ++ p.phrases))

/-- One bound. -/
def bound (g : Grammar) (allowCapture allowConst : Bool) : Parser Bound := do
  if ← peek isLifetime then return ⟨.lifetime (← lifetime), false⟩
  if ← peek (isKeyword "use") then
    let (ends, p) ← capture
    if allowCapture then return ⟨p, false⟩
    else failAt "`use<...>` precise capturing syntax is not allowed here" (ends.map .leaf)
  let start ← position
  let read ←
    if ← peek (isGroup .parenthesis) then
      let (span, p) ← within .parenthesis (traitBound g allowConst)
      pure (p.map fun p => Phrase.group .parenthesis span [p])
    else traitBound g allowConst
  match read with
  | some p => return ⟨p, true⟩
  | none => return ⟨.raw (← readSince start), true⟩

/-- Bounds joined by plus signs; the last one may be followed by a sign too. -/
def bounds (g : Grammar) (allowPlus allowCapture allowConst : Bool) :
    Parser (List (Bound × Option Token)) :=
  loop [] fun acc => do
    let b ← g.bound allowCapture allowConst
    if allowPlus && (← peek (isSign "+")) then
      let plus ← mark "+"
      let acc := (b, some plus) :: acc
      if (← peek opensBound) ||
          (allowConst && ((← peek (isGroup .bracket)) || (← peek (isKeyword "const")))) then
        return .more acc
      else return .done acc.reverse
    else return .done ((b, none) :: acc).reverse

/-- Bounds as a phrase. -/
def boundPhrase (bs : List (Bound × Option Token)) : Phrase :=
  .ofSeparated (bs.map fun b => (b.1.phrase, b.2))

end Memoize.Syntax
