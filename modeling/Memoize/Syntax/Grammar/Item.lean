import Memoize.Syntax.Grammar.Function

/-!
# Items

The forms of items. Functions, implementation blocks and inline modules are taken apart; of the
other items the declared names are noted.
-/

namespace Memoize.Syntax

open Parser

/-- An item that declares one name. -/
def naming (n : Token) (parts : List Phrase) : Item := .other [n.name] [] (.seq parts)

/-- An item that is kept as it is written. The names it declares are not looked for. -/
def kept (start : List TokenTree) (names : List String) : Parser Item := do
  return .other [] names (.raw (← readSince start))

/-! ### Uses -/

/-- The new name of something used. -/
def newName (message : String) : Parser Token := do
  if (← peek isName) || (← peek (isKeyword "_")) then anyName else fail message

/-- What a path is used for. -/
def useTree (g : Grammar) (allowRoot : Bool) : Parser UseTree := do
  if ← peek (fun ts => isName ts || isKeywordOf ["self", "super", "crate", "try"] ts) then
    let isSelf ← peek (isKeyword "self")
    let n ← anyName
    if ← peek (isSign "::") then
      let colons ← sign "::"
      let t ← g.useTree false
      let parents := if t.usesParent then n.name :: t.parents else t.parents
      return ⟨.seq [.word n, .ofTokens colons, t.phrase], t.names, parents, false, t.isRooted⟩
    else
      match ← keyword? "as" with
      | some as_ =>
        let r ← newName "expected identifier or underscore"
        return ⟨.ofTokens [n, as_, r], [r.name], [], false, false⟩
      | none => return ⟨.word n, [n.name], [], isSelf, false⟩
  else if ← peek (isSign "*") then
    return ⟨.word (← mark "*"), [], [], false, false⟩
  else if ← peek (isGroup .brace) then
    let (span, hasRoot, trees) ← within .brace <|
      loop (false, ([] : List (UseTree × Option Token))) fun (hasRoot, acc) => do
        if ← isDone then return .done (hasRoot, acc.reverse)
        let root ← if allowRoot then sign? "::" else pure none
        let t ← g.useTree (allowRoot && root.isNone)
        let hasRoot := hasRoot || root.isSome || t.isRooted
        if ← isDone then return .done (hasRoot, ((t, none) :: acc).reverse)
        let comma ← mark ","
        return .more (hasRoot, (t, some comma) :: acc)
    let parts := trees.map fun t => (t.1.phrase, t.2)
    return ⟨.group .brace span [.ofSeparated parts], trees.flatMap fun t => t.1.names,
      trees.flatMap fun t => t.1.parents, trees.any fun t => t.1.usesParent, hasRoot⟩
  else failExpected ["identifier", "`self`", "`super`", "`crate`", "`try`", "`*`", "curly braces"]

/-- A `use` item. -/
def useItem (g : Grammar) (start : List TokenTree) (attributes : List Attribute) :
    Parser Item := do
  let vis ← visibility
  let use ← keyword "use"
  let leading ← sign? "::"
  let t ← g.useTree leading.isNone
  let semi ← mark ";"
  if t.isRooted then kept start (t.names ++ t.parents)
  else
    return .other t.names t.parents (.seq [Attribute.all attributes, vis, .word use,
      .ofTokens (leading.getD []), t.phrase, .word semi])

/-! ### Constants, variables and types -/

/-- A variable. -/
def staticItem (g : Grammar) (start : List TokenTree) (attributes : List Attribute) :
    Parser Item := do
  let vis ← visibility
  let static ← keyword "static"
  let mut? ← keyword? "mut"
  let n ← name
  if ← peek (isSign "=") then
    let _ ← mark "="
    let _ ← g.expr true
    let _ ← mark ";"
    kept start [n.name]
  else
    let colon ← mark ":"
    let type ← g.anyType
    if ← peek (isSign ";") then
      let _ ← mark ";"
      kept start [n.name]
    else
      let equals ← mark "="
      let value ← g.anyExpr
      let semi ← mark ";"
      return naming n [Attribute.all attributes, vis, .word static, .ofToken? mut?, .word n,
        .word colon, type, .word equals, value, .word semi]

/-- A constant after its visibility and defaultness; nothing if it has no value, or generic
parameters or conditions. -/
def constantFrom (g : Grammar) : Parser (Token × Option Phrase) := do
  let const ← keyword "const"
  let n ←
    if (← peek isName) || (← peek (isKeyword "_")) then anyName
    else failExpected ["identifier", "`_`"]
  let params ← generics g
  let colon ← mark ":"
  let type ← g.anyType
  let value ← match ← mark? "=" with
    | some equals => pure [.word equals, ← g.anyExpr]
    | none => pure []
  let hasWhere ← peek (isKeyword "where")
  let _ ← conditions g
  let semi ← mark ";"
  if value.isEmpty || params.opening.isSome || hasWhere then return (n, none)
  else
    return (n, some (.seq ([.word const, .word n, .word colon, type] ++ value ++ [.word semi])))

/-- A constant. -/
def constItem (g : Grammar) (start : List TokenTree) (attributes : List Attribute) :
    Parser Item := do
  let vis ← visibility
  match ← constantFrom g with
  | (n, some p) => return naming n [Attribute.all attributes, vis, p]
  | (n, none) => kept start [n.name]

/-- Where the conditions of a type definition may stand. -/
inductive ConditionPlace where
  | beforeEquals
  | afterEquals
  | both
  deriving DecidableEq

/-- A type definition in its most general form. -/
structure TypeDefinition where
  name : Token
  hasBounds : Bool
  hasValue : Bool
  /-- The visibility, the word `type`, the name and the generic parameters. -/
  head : List Phrase
  bounds : List Phrase
  value : List Phrase
  conditions : Phrase
  semi : Token

/-- A type definition after its attributes. -/
def typeDefinition (g : Grammar) (allowDefault : Bool) (place : ConditionPlace) :
    Parser TypeDefinition := do
  let vis ← visibility
  let default? ← if allowDefault then keyword? "default" else pure none
  let type_ ← keyword "type"
  let n ← name
  let params ← generics g
  let colon ← mark? ":"
  let stop : Parser Bool := do
    return (← peek (isKeyword "where")) || (← peek (isSign "=")) || (← peek (isSign ";"))
  let bounds ←
    if colon.isSome then separatedUntil "+" stop (return (← g.bound false true).phrase)
    else pure []
  let early ← peek (isKeyword "where")
  let before ← if place = .afterEquals then pure .empty else conditions g
  let equals ← mark? "="
  let value ← match equals with
    | some e => pure [.word e, ← g.anyType]
    | none => pure []
  let late := place = .afterEquals || (place = .both && !early)
  let after ← if late then conditions g else pure .empty
  let semi ← mark ";"
  return ⟨n, colon.isSome, equals.isSome,
    [vis, .ofToken? default?, .word type_, .word n, params.phrase],
    afterColon colon bounds, value, if late then after else before, semi⟩

/-- A type alias. -/
def typeItem (g : Grammar) (start : List TokenTree) (attributes : List Attribute) :
    Parser Item := do
  let d ← typeDefinition g false .beforeEquals
  if d.hasValue && !d.hasBounds then
    return naming d.name (Attribute.all attributes :: d.head ++ d.conditions :: d.value ++
      [.word d.semi])
  else kept start [d.name.name]

/-! ### Structs, enums and unions -/

/-- A named field. -/
def namedField (g : Grammar) : Parser Phrase := do
  let attributes ← outerAttributes g
  let vis ← visibility
  let unnamed ← peek (isKeyword "_")
  let n ← if unnamed then anyName else name
  let colon ← mark ":"
  let nested : Peek := fun ts =>
    isKeyword "struct" ts || (isKeyword "union" ts && isGroup .brace (next ts))
  if unnamed && (← peek nested) then
    let start ← position
    let _ ← anyName
    let _ ← anyGroup
    return .seq [Attribute.all attributes, vis, .word n, .word colon, .raw (← readSince start)]
  else
    return .seq [Attribute.all attributes, vis, .word n, .word colon, ← g.anyType]

/-- The fields of a struct in braces. -/
def namedFields (g : Grammar) : Parser Phrase := do
  let (span, fields) ← within .brace (commaSeparated (namedField g))
  return .group .brace span [.ofSeparated fields]

/-- The fields of a struct in parentheses. -/
def tupleFields (g : Grammar) : Parser Phrase := do
  let (span, fields) ← within .parenthesis <| commaSeparated do
    let attributes ← outerAttributes g
    let vis ← visibility
    return Phrase.seq [Attribute.all attributes, vis, ← g.anyType]
  return .group .parenthesis span [.ofSeparated fields]

/-- A struct. -/
def structItem (g : Grammar) (attributes : List Attribute) : Parser Item := do
  let vis ← visibility
  let struct_ ← keyword "struct"
  let n ← name
  let params ← generics g
  let head : List Phrase :=
    [Attribute.all attributes, vis, .word struct_, .word n, params.phrase]
  let hasWhere ← peek (isKeyword "where")
  let before ← conditions g
  if !hasWhere && (← peek (isGroup .parenthesis)) then
    let fields ← tupleFields g
    let after ← conditions g
    let semi ← if ← peek (isSign ";") then mark ";" else failExpected ["`where`", "`;`"]
    return naming n (head ++ [.late after fields, .word semi])
  else if ← peek (isGroup .brace) then
    return naming n (head ++ [before, ← namedFields g])
  else if ← peek (isSign ";") then
    return naming n (head ++ [before, .word (← mark ";")])
  else failExpected (if hasWhere then ["curly braces", "`;`"] else
    ["`where`", "parentheses", "curly braces", "`;`"])

/-- A variant of an enum; its visibility is not printed. -/
def variant (g : Grammar) : Parser Phrase := do
  let attributes ← outerAttributes g
  let _ ← visibility
  let n ← name
  let fields ←
    if ← peek (isGroup .brace) then namedFields g
    else if ← peek (isGroup .parenthesis) then tupleFields g
    else pure .empty
  let value ← match ← mark? "=" with
    | some equals => pure [.word equals, ← g.anyExpr]
    | none => pure []
  return .seq (Attribute.all attributes :: .word n :: fields :: value)

/-- An enum. -/
def enumItem (g : Grammar) (attributes : List Attribute) : Parser Item := do
  let vis ← visibility
  let enum_ ← keyword "enum"
  let n ← name
  let params ← generics g
  let wheres ← conditions g
  let (span, variants) ← within .brace (commaSeparated (variant g))
  return naming n [Attribute.all attributes, vis, .word enum_, .word n, params.phrase, wheres,
    .group .brace span [.ofSeparated variants]]

/-- A union. -/
def unionItem (g : Grammar) (attributes : List Attribute) : Parser Item := do
  let vis ← visibility
  let union ← keyword "union"
  let n ← name
  let params ← generics g
  let wheres ← conditions g
  return naming n [Attribute.all attributes, vis, .word union, .word n, params.phrase, wheres,
    ← namedFields g]

/-! ### Macro calls -/

/-- A macro call, and whether its arguments are in braces. -/
def macroCall : Parser (Bool × List Phrase) := do
  let p ← plainPath
  let (braced, args) ← macroArgs
  return (braced, p.phrase :: args)

/-- A macro call as a member of a block. -/
def memberMacro (attributes : List Attribute) : Parser Phrase := do
  let (braced, parts) ← macroCall
  let semi ← if braced then pure none else some <$> mark ";"
  return .seq (Attribute.all attributes :: parts ++ [.ofToken? semi])

/-- A macro call as an item, which may define a name. -/
def macroItem (attributes : List Attribute) : Parser Item := do
  let p ← plainPath
  let bang ← sign "!"
  let n ←
    if ← peek (isKeyword "try") then some <$> anyName
    else if ← peek isName then some <$> name
    else pure none
  let (d, span, body) ← anyGroup
  let semi ← if d = .brace then pure none else some <$> mark ";"
  return .other (n.toList.map Token.name) [] (.seq [Attribute.all attributes, p.phrase,
    .ofTokens bang, .ofToken? n, .raw [.group d span body], .ofToken? semi])

/-- A macro defined by its parameters and its body, kept as it is written. -/
def macroDefinition (start : List TokenTree) : Parser Item := do
  let _ ← visibility
  let _ ← keyword "macro"
  let n ← name
  let hasParams ← peek (isGroup .parenthesis)
  if hasParams then let _ ← within .parenthesis everything
  if ← peek (isGroup .brace) then
    let _ ← within .brace everything
    kept start [n.name]
  else failExpected (if hasParams then ["curly braces"] else ["parentheses", "curly braces"])

/-- Whether a macro call or another path comes next, in a place for items. -/
def opensMacro : Peek := fun ts =>
  isName ts || isKeywordOf ["self", "super", "crate"] ts || isSign "::" ts

/-! ### Extern blocks -/

/-- A member of an extern block: its phrase and the name it declares. -/
def foreignMember (g : Grammar) : Parser (Phrase × List String) := do
  let start ← position
  let attributes ← outerAttributes g
  let ts ← position
  let vis ← visibility
  let safe : Peek := fun ts => isKeyword "safe" ts
  let safeSignature : Parser Bool := do
    let opened ← attempt <| trial do
      let _ ← keyword? "const"
      let _ ← keyword? "async"
      if ← peek safe then let _ ← keyword "safe" else let _ ← keyword? "unsafe"
      let _ ← linkage
      peek (isKeyword "fn")
    return opened.getD false
  if ← safeSignature then
    let const? ← keyword? "const"
    let async? ← keyword? "async"
    let isSafe ← peek safe
    if isSafe then let _ ← keyword "safe"
    let s ← signature g
    let hasBody ← peek (isGroup .brace)
    if hasBody then
      let _ ← block g
      return (.raw (← readSince start), [s.name.name])
    else
      let semi ← mark ";"
      if isSafe then return (.raw (← readSince start), [s.name.name])
      else
        let s := { s with
          const? := const?.orElse fun _ => s.const?
          async? := async?.orElse fun _ => s.async? }
        return (.seq [Attribute.all attributes, vis, s.phrase, .word semi], [s.name.name])
  else if (← peek (isKeyword "static")) ||
      (((← peek (isKeyword "unsafe")) || (← peek safe)) && (← peek2 (isKeyword "static"))) then
    let marked := !(← peek (isKeyword "static"))
    if marked then let _ ← anyName
    let static ← keyword "static"
    let mut? ← keyword? "mut"
    let n ← name
    let colon ← mark ":"
    let type ← g.anyType
    let hasValue ← peek (isSign "=")
    if hasValue then
      let _ ← mark "="
      let _ ← g.expr true
    let semi ← mark ";"
    if marked || hasValue then return (.raw (← readSince start), [n.name])
    else return (.seq [Attribute.all attributes, vis, .word static, .ofToken? mut?, .word n,
      .word colon, type, .word semi], [n.name])
  else if ← peek (isKeyword "type") then
    modify fun s => { s with rest := ts }
    let d ← typeDefinition g false .both
    if d.hasBounds || d.hasValue then return (.raw (← readSince start), [d.name.name])
    else return (.seq (Attribute.all attributes :: d.head ++ [d.conditions, .word d.semi]),
      [d.name.name])
  else if isBlankPhrase vis && (← peek opensMacro) then
    return (← memberMacro attributes, [])
  else failExpected ["`fn`", "`static`", "`type`", "identifier", "`self`", "`super`", "`crate`",
    "`::`"]
where
  /-- Whether a phrase has no tokens. -/
  isBlankPhrase (p : Phrase) : Bool := p.tokens.isEmpty

/-- An extern block. -/
def externBlock (g : Grammar) (attributes : List Attribute) : Parser Item := do
  let unsafety ← keyword? "unsafe"
  let abi ← linkage
  let (span, inner, members) ← within .brace do
    let inner ← innerAttributes g
    return (inner, ← untilDone (foreignMember g))
  return .other [] (members.flatMap (·.2)) (.seq [Attribute.all attributes, .ofToken? unsafety, abi,
    .group .brace span (Attribute.all inner :: members.map (·.1))])

/-- The use of another crate. -/
def externCrate (attributes : List Attribute) : Parser Item := do
  let vis ← visibility
  let extern_ ← keyword "extern"
  let crate_ ← keyword "crate"
  let n ← if ← peek (isKeyword "self") then anyName else name
  let (rename, shown) ← match ← keyword? "as" with
    | some as_ =>
      let r ← newName "expected identifier or `_`"
      pure (r, [as_, r])
    | none => pure (n, [])
  let semi ← mark ";"
  return naming rename [Attribute.all attributes, vis, .ofTokens [extern_, crate_, n],
    .ofTokens shown, .word semi]

/-! ### Traits -/

/-- A member of a trait. -/
def traitMember (g : Grammar) : Parser Phrase := do
  let start ← position
  let attributes ← outerAttributes g
  let afterAttributes ← position
  let vis ← visibility
  let default? ← keyword? "default"
  let plain := vis.tokens.isEmpty && default?.isNone
  let asRead (p : Phrase) : Parser Phrase := do
    if plain then return p else return .raw (← readSince start)
  if ← opensSignature then
    let s ← signature g
    if ← peek (isGroup .brace) then
      asRead (.seq [Attribute.all attributes, s.phrase, ← block g])
    else
      let semi ← if ← peek (isSign ";") then mark ";" else failExpected ["curly braces", "`;`"]
      asRead (.seq [Attribute.all attributes, s.phrase, .word semi])
  else if ← peek (isKeyword "const") then
    let const ← keyword "const"
    let n ←
      if (← peek isName) || (← peek (isKeyword "_")) then anyName
      else failExpected ["identifier", "`_`", "`async`", "`unsafe`", "`extern`", "`fn`"]
    let params ← generics g
    let colon ← mark ":"
    let type ← g.anyType
    let value ← match ← mark? "=" with
      | some equals => pure [.word equals, ← g.anyExpr]
      | none => pure []
    let hasWhere ← peek (isKeyword "where")
    let _ ← conditions g
    let semi ← mark ";"
    if params.opening.isSome || hasWhere then return .raw (← readSince start)
    else asRead (.seq ([Attribute.all attributes, .word const, .word n, .word colon, type] ++
      value ++ [.word semi]))
  else if ← peek (isKeyword "type") then
    modify fun s => { s with rest := afterAttributes }
    let d ← typeDefinition g true .afterEquals
    asRead (.seq (Attribute.all attributes :: d.head ++
      [.late d.conditions (.seq (d.bounds ++ d.value)), .word d.semi]))
  else if plain && (← peek opensMacro) then memberMacro attributes
  else failExpected ["`fn`", "`const`", "`type`", "identifier", "`self`", "`super`", "`crate`",
    "`::`"]

/-- A trait from its bounds on. -/
def traitFrom (g : Grammar) (n : Token) (head : List Phrase) : Parser Item := do
  let colon ← mark? ":"
  let stop : Parser Bool := return (← peek (isKeyword "where")) || (← peek (isGroup .brace))
  let supers ←
    if colon.isSome then separatedUntil "+" stop (return (← g.bound false true).phrase)
    else pure []
  let wheres ← conditions g
  let (span, inner, members) ← within .brace do
    let inner ← innerAttributes g
    return (inner, ← untilDone (traitMember g))
  return naming n (head ++ [.late wheres (.seq (afterColon colon supers)),
    .group .brace span (Attribute.all inner :: members)])

/-- A trait, or an alias of one. -/
def traitItem (g : Grammar) (attributes : List Attribute) : Parser Item := do
  let vis ← visibility
  let unsafety ← keyword? "unsafe"
  let auto? ← keyword? "auto"
  let trait_ ← keyword "trait"
  let n ← name
  let params ← generics g
  let head : List Phrase := [Attribute.all attributes, vis, .ofToken? unsafety, .ofToken? auto?,
    .word trait_, .word n, params.phrase]
  if unsafety.isSome || auto?.isSome then traitFrom g n head
  else if (← peek (isGroup .brace)) || (← peek (isSign ":")) || (← peek (isKeyword "where")) then
    traitFrom g n head
  else if ← peek (isSign "=") then
    let equals ← mark "="
    let stop : Parser Bool := return (← peek (isKeyword "where")) || (← peek (isSign ";"))
    let bs ← separatedUntil "+" stop (return (← g.bound false true).phrase)
    let wheres ← conditions g
    let semi ← mark ";"
    return naming n (head ++ [.late wheres (.seq [.word equals, .ofSeparated bs]), .word semi])
  else failExpected ["curly braces", "`:`", "`where`", "`=`"]

/-! ### Implementation blocks -/

/-- Whether an angle bracket after `impl` opens generic parameters, and not a qualified type. -/
def opensGenerics : Peek := fun ts =>
  let second := next ts
  let third := next second
  isSign "<" ts && (isSign ">" second || isSign "#" second ||
    ((isLifetime second || isName second) &&
      (isSign ">" third || isSign "," third || (isSign ":" third && !isSign "::" third) ||
        isSign "=" third)) ||
    isKeyword "const" second)

/-- A member of an implementation block. -/
def implMember (g : Grammar) : Parser Member := do
  let start ← position
  let attributes ← outerAttributes g
  let ts ← position
  let vis ← visibility
  let default? ←
    if (← peek (isKeyword "default")) && !(← peek2 (isSign "!")) then keyword? "default"
    else pure none
  if ← opensSignature then
    let s ← signature g
    match ← mark? ";" with
    | some _ => return .other none (.raw (← readSince start))
    | none => return .function (← functionFrom g attributes vis default? s)
  else if ← peek (isKeyword "const") then
    match ← constantFrom g with
    | (n, some p) =>
      return .other (some n.name) (.seq [Attribute.all attributes, vis, .ofToken? default?, p])
    | (_, none) => return .other none (.raw (← readSince start))
  else if ← peek (isKeyword "type") then
    modify fun s => { s with rest := ts }
    let d ← typeDefinition g true .afterEquals
    if d.hasValue && !d.hasBounds then
      return .other (some d.name.name) (.seq (Attribute.all attributes :: d.head ++
        [.late d.conditions (.seq d.value), .word d.semi]))
    else return .other none (.raw (← readSince start))
  else if vis.tokens.isEmpty && default?.isNone && (← peek opensMacro) then
    return .other none (← memberMacro attributes)
  else failExpected ["`fn`", "`const`", "`type`", "identifier", "`self`", "`super`", "`crate`",
    "`::`"]

/-- The path of a type that is a path, also if it was substituted as a whole. -/
def pathOfShape : TypeShape → Option Path
  | .path none p => some p
  | .fragment inner => pathOfShape inner
  | _ => none

/-- An implementation block. The answer is nothing if it has a visibility, a written constness, or
something other than a path for a trait; `strict` makes these faults. -/
def implBlock (g : Grammar) (strict : Bool) : Parser (Option ImplBlock) := do
  let outer ← outerAttributes g
  let vis ← if strict then pure .empty else visibility
  let default? ← keyword? "default"
  let unsafety ← keyword? "unsafe"
  let impl ← keyword "impl"
  let params ← if ← peek opensGenerics then generics g else pure .none
  let isConst ← do
    if strict then pure false
    else if ← peek (isKeyword "const") then
      let _ ← keyword "const"
      pure true
    else if (← peek (isSign "?")) && (← peek2 (isKeyword "const")) then
      let _ ← mark "?"
      let _ ← keyword "const"
      pure true
    else pure false
  let start ← position
  let polarity ←
    if (← peek (isSign "!")) && !(← peek2 (isGroup .brace)) then mark? "!" else pure none
  let first ← g.type true true
  let isFor ← peek (isKeyword "for")
  let (trait?, selfType) ←
    if isFor then
      let for_ ← keyword "for"
      let trait? := (pathOfShape first.shape).map fun p => (⟨polarity, p, for_⟩ : TraitRef)
      if strict && trait?.isNone then failAt "expected trait path" first.phrase.tokens
      pure (trait?, ← g.anyType)
    else if polarity.isNone then pure (none, first.phrase)
    else pure (none, .raw (← readSince start))
  let wheres ← conditions g
  let (span, inner, members) ← within .brace do
    let inner ← innerAttributes g
    return (inner, ← untilDone (implMember g))
  if !vis.tokens.isEmpty || isConst || (isFor && trait?.isNone) then return none
  else
    return some ⟨outer, default?, unsafety, impl, params, trait?, selfType, wheres, span, inner,
      members⟩

/-! ### Modules and items -/

/-- A module, inline or elsewhere. -/
def moduleItem (g : Grammar) (outer : List Attribute) : Parser Item := do
  let vis ← visibility
  let unsafety ← keyword? "unsafe"
  let mod ← keyword "mod"
  let n ← if ← peek (isKeyword "try") then anyName else name
  if ← peek (isSign ";") then
    let semi ← mark ";"
    return naming n [Attribute.all outer, vis, .ofToken? unsafety, .word mod, .word n, .word semi]
  else if ← peek (isGroup .brace) then
    let (span, inner, items) ← within .brace do
      let inner ← innerAttributes g
      return (inner, ← untilDone g.item)
    return .module ⟨outer, vis, unsafety, mod, n, span, inner⟩ items
  else failExpected ["`;`", "curly braces"]

/-- An implementation block as an item. -/
def implItem (g : Grammar) (start : List TokenTree) : Parser Item := do
  modify fun s => { s with rest := start }
  match ← implBlock g false with
  | some b => return .block b
  | none => kept start []

/-- An item. -/
def item (g : Grammar) : Parser Item := do
  let start ← position
  let attributes ← outerAttributes g
  let ts ← position
  let (vis, ahead) ← trial do
    let vis ← visibility
    return (vis, ← position)
  let signatureNext ← trial do
    let _ ← visibility
    opensSignature
  let second := next ahead
  if signatureNext then
    let vis ← visibility
    let s ← signature g
    match ← mark? ";" with
    | some _ => kept start [s.name.name]
    | none => return .function (← functionFrom g attributes vis none s)
  else if isKeyword "extern" ahead then
    let third := next second
    if isKeyword "crate" second then externCrate attributes
    else if isGroup .brace second then externBlock g attributes
    else if isLiteralOf [.text] second then
      if isGroup .brace third then externBlock g attributes
      else failExpected ["curly braces"]
    else failExpected ["`crate`", "curly braces", "string literal"]
  else if isKeyword "use" ahead then useItem g start attributes
  else if isKeyword "static" ahead then staticItem g start attributes
  else if isKeyword "const" ahead then constItem g start attributes
  else if isKeyword "unsafe" ahead then
    if isKeyword "trait" second || (isKeyword "auto" second && isKeyword "trait" (next second)) then
      traitItem g attributes
    else if isKeyword "impl" second then implItem g start
    else if isKeyword "extern" second then externBlock g attributes
    else if isKeyword "mod" second then moduleItem g attributes
    else failExpected ["`trait`", "`auto`", "`impl`", "`extern`", "`mod`"]
  else if isKeyword "mod" ahead then moduleItem g attributes
  else if isKeyword "type" ahead then typeItem g start attributes
  else if isKeyword "struct" ahead then structItem g attributes
  else if isKeyword "enum" ahead then enumItem g attributes
  else if isKeyword "union" ahead && isName second then unionItem g attributes
  else if isKeyword "trait" ahead || (isKeyword "auto" ahead && isKeyword "trait" second) then
    traitItem g attributes
  else if isKeyword "impl" ahead || (isKeyword "default" ahead && !isSign "!" second) then
    implItem g start
  else if isKeyword "macro" ahead then macroDefinition start
  else if vis.tokens.isEmpty && opensMacro ts then macroItem attributes
  else failExpected ["item"]

/-- The items of a source file, after its attributes. -/
def file (g : Grammar) : Parser (List Item) := do
  let _ ← innerAttributes g
  untilDone g.item

end Memoize.Syntax
