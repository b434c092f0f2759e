import Memoize.Syntax.Grammar.Statement

/-!
# Functions

Visibilities, generic parameters, conditions, signatures and functions with bodies.
-/

namespace Memoize.Syntax

open Parser

/-! ### Visibility -/

/-- A restriction of a visibility, if the parenthesis that follows is one. -/
def restriction : Parser (List Phrase) := do
  let start ← position
  let read : Parser (Option Phrase) := do
    let (span, parts) ← within .parenthesis do
      if ← peek (isKeywordOf ["crate", "self", "super"]) then
        let t ← anyName
        if ← isDone then return some [Phrase.word t] else return none
      else if ← peek (isKeyword "in") then
        let in_ ← keyword "in"
        let p ← plainPath
        return some [.word in_, p.phrase]
      else return none
    return parts.map fun ps => .group .parenthesis span ps
  if ← peek (isGroup .parenthesis) then
    let before := (← get).stray
    match ← read with
    | some p => return [p]
    | none =>
      set (Stream.mk start before)
      return []
  else return []

/-- A visibility; an empty fragment stands for none. -/
def visibility : Parser Phrase := do
  match (← get).rest with
  | .group .invisible _ [] :: rest =>
    modify fun s => { s with rest }
    return .empty
  | _ =>
    match ← keyword? "pub" with
    | some t => return .seq (.word t :: (← restriction))
    | none => return .empty

/-! ### Generic parameters and conditions -/

/-- The generic parameters of an item, without its conditions. -/
def generics (g : Grammar) : Parser Generics := do
  match ← mark? "<" with
  | none => return .none
  | some opening =>
    let params ← separatedUntil "," (peek (isSign ">")) do
      let start ← position
      let attributes ← outerAttributes g
      if ← peek (isKeyword "_") then
        let t ← anyName
        return (false, Phrase.seq [Attribute.all attributes, .word t])
      else
        modify fun s => { s with rest := start }
        genericParam g
    let closing ← mark ">"
    return ⟨some opening, params.map fun p => ⟨p.1.1, p.1.2, p.2⟩, some closing⟩

/-- What ends a list of conditions or of the bounds of one. -/
def endsConditions : Peek := fun ts =>
  ts.isEmpty || isGroup .brace ts || isSign "," ts || isSign ";" ts ||
    (isSign ":" ts && !isSign "::" ts) || isSign "=" ts

/-- One condition. -/
def condition (g : Grammar) : Parser Phrase := do
  if (← peek isLifetime) && (← peek2 (isSign ":")) then
    let l ← lifetime
    let colon ← mark ":"
    let bounds ← joined (peek endsConditions) (return Phrase.lifetime (← lifetime))
    return .seq [.lifetime l, .word colon, .ofSeparated bounds]
  else
    let lifetimes ← binder? g
    let type ← g.anyType
    let colon ← mark ":"
    let bounds ← joined (peek endsConditions) (return (← g.bound false true).phrase)
    return .seq (lifetimes ++ [type, .word colon, .ofSeparated bounds])

/-- The conditions after `where`; none are printed as nothing. -/
def conditions (g : Grammar) : Parser Phrase := do
  match ← keyword? "where" with
  | none => return .empty
  | some where_ =>
    let cs ← loop ([] : List (Phrase × Option Token)) fun acc => do
      if ← peek endsConditions then return .done acc.reverse
      let c ← condition g
      match ← mark? "," with
      | some comma => return .more ((c, some comma) :: acc)
      | none => return .done ((c, none) :: acc).reverse
    if cs.isEmpty then return .empty else return .seq [.word where_, .ofSeparated cs]

/-! ### Signatures -/

/-- A method receiver without its attributes. -/
def receiver (g : Grammar) : Parser Receiver := do
  let amp? ← mark? "&"
  let lifetime? ← if amp?.isSome && (← peek isLifetime) then some <$> lifetime else pure none
  let mut? ← keyword? "mut"
  let self ← keyword "self"
  let explicit? ←
    if amp?.isSome then pure none
    else match ← mark? ":" with
      | some colon => pure (some (colon, ← g.anyType))
      | none => pure none
  return ⟨[], amp?, lifetime?, mut?, self, explicit?⟩

/-- The result after an arrow. -/
def result? (g : Grammar) : Parser (Option (List Token × Phrase)) := do
  match ← sign? "->" with
  | some arrow => return some (arrow, ← g.anyType)
  | none => return none

/-- A parameter, or the open end of the parameter list. -/
def input (g : Grammar) (attributes : List Attribute) : Parser (Sum Input Phrase) := do
  match ← attempt (receiver g) with
  | some r => return .inl (.receiver { r with attributes })
  | none =>
    let start ← position
    if isName start && isSign "<" (next start) then
      let span := match TokenTree.front start with
        | t :: _ => t.span
        | [] => none
      let type ← g.anyType
      let blank : Pattern := ⟨.word ⟨.name "_", span⟩, none, []⟩
      return .inl (.typed attributes blank ⟨.mark ':' false, span⟩ type)
    let p ← g.pattern
    let colon ← mark ":"
    match ← sign? "..." with
    | some dots =>
      return .inr (.seq [Attribute.all attributes, p.pattern.phrase, .word colon, .ofTokens dots])
    | none =>
      let type ← g.anyType
      return .inl (.typed attributes p.pattern colon type)

/-- The parameters of a function, and the open end they may have. -/
def inputs (g : Grammar) : Parser (List (Input × Option Token) × Phrase) :=
  loop ([] : List (Input × Option Token)) fun acc => do
    let openEnd (p : Phrase) : Parser (Turn _ (List (Input × Option Token) × Phrase)) := do
      let comma ← if ← isDone then pure none else some <$> mark ","
      return .done (acc.reverse, .seq [p, .ofToken? comma])
    if ← isDone then return .done (acc.reverse, .empty)
    let attributes ← outerAttributes g
    match ← sign? "..." with
    | some dots => openEnd (.seq [Attribute.all attributes, .ofTokens dots])
    | none =>
      match ← input g attributes with
      | .inr p => openEnd p
      | .inl i =>
        match i with
        | .receiver r =>
          if acc.any fun j => match j.1 with | .receiver _ => true | _ => false then
            failAt "unexpected second method receiver" [.leaf r.self]
          else if !acc.isEmpty then failAt "unexpected method receiver" [.leaf r.self]
        | .typed .. => pure ()
        if ← isDone then return .done (((i, none) :: acc).reverse, .empty)
        let comma ← mark ","
        return .more ((i, some comma) :: acc)

/-- A signature. -/
def signature (g : Grammar) : Parser Signature := do
  let const? ← keyword? "const"
  let async? ← keyword? "async"
  let unsafety ← keyword? "unsafe"
  let abi ← linkage
  let fn ← keyword "fn"
  let n ← name
  let generics ← generics g
  let (span, inputs, variadic) ← within .parenthesis (inputs g)
  let output? ← result? g
  let conditions ← conditions g
  return ⟨const?, async?, unsafety, abi, fn, n, generics, span, inputs, variadic, output?,
    conditions⟩

/-- Whether a signature comes next. -/
def opensSignature : Parser Bool := do
  let opened ← attempt <| trial do
    let _ ← keyword? "const"
    let _ ← keyword? "async"
    let _ ← keyword? "unsafe"
    let _ ← linkage
    peek (isKeyword "fn")
  return opened.getD false

/-- A function from its visibility on. -/
def functionFrom (g : Grammar) (outer : List Attribute) (visibility : Phrase)
    (default? : Option Token) (signature : Signature) : Parser Function := do
  let (span, inner, body) ← within .brace do
    let inner ← innerAttributes g
    return (inner, ← g.statements)
  return ⟨outer, visibility, default?, signature, inner, span, body⟩

/-- A function with a body. -/
def function (g : Grammar) : Parser Function := do
  let outer ← outerAttributes g
  let vis ← visibility
  let sig ← signature g
  functionFrom g outer vis none sig

/-- A function declaration in a trait: whether it has a body. -/
def declaration (g : Grammar) : Parser Bool := do
  let _ ← outerAttributes g
  let _ ← signature g
  if ← peek (isGroup .brace) then
    let _ ← block g
    return true
  else
    let _ ← if ← peek (isSign ";") then mark ";" else failExpected ["curly braces", "`;`"]
    return false

end Memoize.Syntax
