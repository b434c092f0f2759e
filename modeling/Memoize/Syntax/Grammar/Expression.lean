import Memoize.Syntax.Grammar.Pattern

/-!
# Expressions

The forms of expressions. Operators bind by level; a brace after a path opens a struct expression
only where the caller allows it.
-/

namespace Memoize.Syntax

open Parser

/-! ### Operators -/

/-- The binary operators that make a value of two, longer signs before their beginnings. -/
def operators : List (String × Level) :=
  [("+=", .assign), ("-=", .assign), ("*=", .assign), ("/=", .assign), ("%=", .assign),
   ("^=", .assign), ("&=", .assign), ("|=", .assign), ("<<=", .assign), (">>=", .assign),
   ("&&", .and), ("||", .or), ("<<", .shift), (">>", .shift), ("==", .compare), ("<=", .compare),
   ("!=", .compare), (">=", .compare), ("+", .sum), ("-", .sum), ("*", .product), ("/", .product),
   ("%", .product), ("^", .bitXor), ("&", .bitAnd), ("|", .bitOr), ("<", .compare),
   (">", .compare)]

/-- The binary operator at the head of a stream. -/
def operator? (ts : List TokenTree) : Option (String × Level) :=
  operators.find? fun o => isSign o.1 ts

/-- The level of the operator at the head of a stream. -/
def levelAhead (ts : List TokenTree) : Level :=
  match operator? ts with
  | some (_, l) => l
  | none =>
    if isSign "=" ts && !isSign "=>" ts then .assign
    else if isSign ".." ts then .range
    else if isKeyword "as" ts then .cast
    else .jump

/-- The right operand of a binary operator. -/
def rightOperand (g : Grammar) (allowStruct : Bool) (level : Level) : Parser Expr := do
  let first ← g.unary allowStruct
  loop first fun e => do
    let start ← position
    let ahead := levelAhead start
    if level < ahead || (level = ahead && level = .assign) then
      let e ← g.climb e allowStruct ahead
      if TokenTree.visible (← position) = TokenTree.visible start then return .done e
      else return .more e
    else return .done e

/-- What ends a range without an upper bound. -/
def endsRange (allowStruct : Bool) : Peek := fun ts =>
  ts.isEmpty || isSign "," ts || isSign ";" ts || (isSign "." ts && !isSign ".." ts) ||
    isSign "?" ts || isSign "=>" ts || (!allowStruct && isGroup .brace ts) || isSign "=" ts ||
    isSign "+" ts || isSign "/" ts || isSign "%" ts || isSign "^" ts || isSign ">" ts ||
    isSign "<=" ts || isSign "!=" ts || isSign "-=" ts || isSign "*=" ts || isSign "&=" ts ||
    isSign "|=" ts || isSign "<<=" ts || isKeyword "as" ts

/-- The sign of a range and its upper bound. -/
def rangeEnd (g : Grammar) (allowStruct : Bool) : Parser (List Phrase) := do
  let (dots, closed) ← rangeSign false
  if !closed && (← peek (endsRange allowStruct)) then return [.ofTokens dots]
  else return [.ofTokens dots, (← rightOperand g allowStruct .range).phrase]

/-- What cannot follow a cast without parentheses. -/
def checkCast : Parser Unit := do
  let wrong : Option String ←
    if (← peek (isSign ".")) && !(← peek (isSign "..")) then
      if ← peek2 (isKeyword "await") then pure (some "`.await`")
      else if (← peek2 isName) && ((← peek3 (isGroup .parenthesis)) || (← peek3 (isSign "::"))) then
        pure (some "a method call")
      else pure (some "a field access")
    else if ← peek (isSign "?") then pure (some "`?`")
    else if ← peek (isGroup .bracket) then pure (some "indexing")
    else if ← peek (isGroup .parenthesis) then pure (some "a function call")
    else pure none
  match wrong with
  | some w => failHere ("casts cannot be followed by " ++ w)
  | none => return

/-- Continues an expression with operators of at least a level. -/
def climb (g : Grammar) (start : Expr) (allowStruct : Bool) (base : Level) : Parser Expr :=
  loop start fun e => do
    let ts ← position
    match e.kind, operator? ts with
    | .range, _ => return .done e
    | kind, some (s, level) =>
      if level < base then return .done e
      match kind with
      | .binary l =>
        if l = .compare && level = .compare then fail "comparison operators cannot be chained"
      | _ => pure ()
      let op ← sign s
      let right ← rightOperand g allowStruct level
      return .more (.plain (.binary level) [e.phrase, .ofTokens op, right.phrase])
    | _, none =>
      if base ≤ .assign && isSign "=" ts && !isSign "=>" ts then
        let equals ← sign "="
        let right ← rightOperand g allowStruct .assign
        return .more (.plain .assign [e.phrase, .ofTokens equals, right.phrase])
      else if base ≤ .range && isSign ".." ts then
        let upper ← rangeEnd g allowStruct
        return .more (.plain .range (e.phrase :: upper))
      else if base ≤ .cast && isKeyword "as" ts then
        let as_ ← keyword "as"
        let t ← g.type false false
        checkCast
        return .more (.plain .cast [e.phrase, .word as_, t.phrase])
      else return .done e

/-! ### Groups of expressions -/

/-- Expressions separated by commas in a group. -/
def exprGroup (g : Grammar) (d : Delimiter) : Parser Phrase := do
  let (span, es) ← within d (commaSeparated g.anyExpr)
  return .group d span [.ofSeparated es]

/-- An expression in parentheses, or a tuple. -/
def parenExpr (g : Grammar) : Parser Expr := do
  let (span, kind, parts) ← within .parenthesis do
    if ← isDone then return (ExprKind.tuple, [])
    let first ← g.anyExpr
    if ← isDone then return (.paren, [first])
    let comma ← mark ","
    let more ← commaSeparated g.anyExpr
    return (.tuple, [first, .word comma, .ofSeparated more])
  return .plain kind [.group .parenthesis span parts]

/-- A sequence of expressions, or one repeated. -/
def bracketExpr (g : Grammar) : Parser Expr := do
  let (span, kind, parts) ← within .bracket do
    if ← isDone then return (ExprKind.array, [])
    let first ← g.anyExpr
    if ← isDone then return (.array, [first])
    else if ← peek (isSign ",") then
      let comma ← mark ","
      let more ← commaSeparated g.anyExpr
      return (.array, [first, .word comma, .ofSeparated more])
    else if ← peek (isSign ";") then
      let semi ← mark ";"
      return (.repetition, [first, .word semi, ← g.anyExpr])
    else fail "expected `,` or `;`"
  return .plain kind [.group .bracket span parts]

/-! ### What follows an atom -/

/-- The parts of a number between points, as field names. -/
def fieldIndices (number : String) : List String :=
  let parts := number.splitOn "."
  if parts.getLast? = some "" then parts.dropLast else parts

/-- The fields written like a fraction after a point, and the point that may be left open. -/
def fractionFields (number : Token) : Parser (List Phrase) := do
  let point : Phrase := .word ⟨.mark '.' false, number.span⟩
  let read (part : String) : Parser Phrase :=
    match Literal.wholeValue? part with
    | some (n, "") =>
      if n < 4294967296 then return .word ⟨.literal (toString n), number.span⟩
      else failAt "number too large to fit in target type" [.leaf number]
    | some _ => failAt "expected unsuffixed integer" [.leaf number]
    | none => failAt "expected integer literal" [.leaf number]
  let fields ← (fieldIndices number.word.text).mapM read
  return fields.intersperse point

/-- Calls, fields, indices and question marks after an expression. -/
def trailers (g : Grammar) (start : Expr) : Parser Expr :=
  loop (start, ([] : List Phrase)) fun (e, dots) => do
    let ts ← position
    let isRange := match e.kind with
      | .range => true
      | _ => false
    let access (dot : Phrase) : Parser (Turn (Expr × List Phrase) Expr) := do
      match ← keyword? "await" with
      | some t => return .more (.plain .await [e.phrase, dot, .word t], [])
      | none =>
        let (m, named) ← member
        let args : Option SegmentArgs ←
          if named && (← peek (isSign "::")) then
            let colons ← sign "::"
            some <$> angleArgs g colons
          else pure none
        if named && (args.isSome || (← peek (isGroup .parenthesis))) then
          let call ← exprGroup g .parenthesis
          let turbofish : List Phrase := (args.map SegmentArgs.phrases).getD []
          return .more (.plain .methodCall ([e.phrase, dot, .word m] ++ turbofish ++ [call]), [])
        else return .more (.plain .field [e.phrase, dot, .word m], [])
    match dots with
    | dot :: _ => access dot
    | [] =>
      if isGroup .parenthesis ts then
        let call ← exprGroup g .parenthesis
        return .more (.plain .call [e.phrase, call], [])
      else if isSign "." ts && !isSign ".." ts && !isRange then
        let dot ← mark "."
        if ← peek (isLiteralOf [.fraction]) then
          let number ← literalOf [.fraction] "expected floating point literal"
          let fields ← fractionFields number
          let e' : Expr := .plain .field (e.phrase :: .word dot :: fields)
          if number.word.text.endsWith "." then
            return .more (e', [.word ⟨.mark '.' false, number.span⟩])
          else return .more (e', [])
        else access (.word dot)
      else if isGroup .bracket ts then
        let (span, i) ← within .bracket g.anyExpr
        return .more (.plain .index [e.phrase, .group .bracket span [i]], [])
      else if isSign "?" ts && !isRange then
        let question ← mark "?"
        return .more (.plain .try [e.phrase, .word question], [])
      else return .done e

/-! ### Atoms -/

/-- The fields of a struct expression. -/
def structFields (g : Grammar) : Parser (List Phrase) :=
  loop ([] : List Phrase) fun acc => do
    if ← isDone then return .done acc.reverse
    if ← peek (isSign "..") then
      let dots ← sign ".."
      if ← isDone then return .done (.ofTokens dots :: acc).reverse
      else return .done ((← g.anyExpr) :: .ofTokens dots :: acc).reverse
    let attributes ← outerAttributes g
    let (m, named) ← member
    let field : List Phrase ←
      if (← peek (isSign ":")) || !named then
        let colon ← mark ":"
        pure [.word m, .word colon, ← g.anyExpr]
      else pure [.word m]
    let acc := .seq (Attribute.all attributes :: field) :: acc
    if ← isDone then return .done acc.reverse
    let comma ← mark ","
    return .more (.word comma :: acc)

/-- What may follow a path in an expression: a macro call's arguments or a struct's fields. -/
def afterPath (g : Grammar) (q : Option Qualifier) (p : Path) (allowStruct : Bool) :
    Parser Expr := do
  let head := pathExpr q p
  if ← callsMacro q p then
    let (braced, args) ← macroArgs
    return .plain (.expansion braced) (head :: args)
  else if allowStruct && (← peek (isGroup .brace)) then
    let (span, fields) ← within .brace (structFields g)
    return .plain .struct [head, .group .brace span fields]
  else return .plain (.path q p) [head]

/-- A fragment, which can be continued as a path. -/
def fragmentExpr (g : Grammar) (allowStruct : Bool) : Parser Expr := do
  let (span, inner) ← fragment (g.expr true)
  let whole (e : Expr) : Expr := .plain (.group e.kind) [.group .invisible span [e.phrase]]
  match inner.kind, inner.attributed with
  | .path q p, false =>
    let p' ← moreSegments g true p
    let e ← afterPath g q p' allowStruct
    match e.kind with
    | .path _ _ => if p'.tail.length = p.tail.length then return whole e else return e
    | _ => return e
  | _, _ => return whole inner

/-- A parameter of a closure. -/
def closureParam (g : Grammar) : Parser Phrase := do
  let attributes ← outerAttributes g
  let p ← g.pattern
  match ← mark? ":" with
  | some colon =>
    return .seq [Attribute.all attributes, p.pattern.phrase, .word colon, ← g.anyType]
  | none => return .seq [Attribute.all attributes, p.pattern.phrase]

/-- A closure. -/
def closure (g : Grammar) (allowStruct : Bool) : Parser Expr := do
  let lifetimes ← binder? g
  let const? ← keyword? "const"
  let static? ← keyword? "static"
  let async? ← keyword? "async"
  let move? ← keyword? "move"
  let opening ← mark "|"
  let params ← separatedUntil "," (peek (isSign "|")) (closureParam g)
  let closing ← mark "|"
  let head : List Phrase := lifetimes ++ [.ofToken? const?, .ofToken? static?, .ofToken? async?,
    .ofToken? move?, .word opening, .ofSeparated params, .word closing]
  match ← sign? "->" with
  | some arrow =>
    let type ← g.anyType
    let body ← bareBlock g
    return .plain .closure (head ++ [.ofTokens arrow, type, body])
  | none =>
    let body ← g.expr allowStruct
    return .plain .closure (head ++ [body.phrase])

/-- What an expression can begin with. -/
def opensExpr : Peek := fun ts =>
  (isAnyName ts && !isKeyword "as" ts) || isGroup .parenthesis ts || isGroup .bracket ts ||
    isGroup .brace ts || isLiteral ts || (isSign "!" ts && !isSign "!=" ts) ||
    (isSign "-" ts && !isSign "-=" ts && !isSign "->" ts) || (isSign "*" ts && !isSign "*=" ts) ||
    (isSign "|" ts && !isSign "|=" ts) || (isSign "&" ts && !isSign "&=" ts) || isSign ".." ts ||
    (isSign "<" ts && !isSign "<=" ts && !isSign "<<=" ts) || isSign "::" ts || isLifetime ts ||
    isSign "#" ts

/-- A jump out of a loop or block, with its value. -/
def breakExpr (g : Grammar) (allowStruct : Bool) : Parser Expr := do
  let break_ ← keyword "break"
  if (← peek isLifetime) && (← peek2 (isSign ":")) then
    let start ← position
    let _ ← g.expr true
    failAt "parentheses required" (← readSince start)
  let label ← if ← peek isLifetime then some <$> lifetime else pure none
  let value ←
    if (← peek opensExpr) && (allowStruct || !(← peek (isGroup .brace))) then
      pure [← g.anyExpr]
    else pure []
  return .plain .break (.word break_ :: (label.toList.map .lifetime ++ value))

/-- A word followed by an optional value. -/
def wordWithValue (g : Grammar) (kind : ExprKind) (k : String) : Parser Expr := do
  let t ← keyword k
  if ← peek opensExpr then return .plain kind [.word t, ← g.anyExpr]
  else return .plain kind [.word t]

/-- A test that binds names. -/
def letExpr (g : Grammar) (allowStruct : Bool) : Parser Expr := do
  let let_ ← keyword "let"
  let p ← g.patterns
  let equals ← mark "="
  let first ← g.unary allowStruct
  let value ← g.climb first allowStruct .compare
  return .plain .binding [.word let_, p.pattern.phrase, .word equals, value.phrase]

/-- A choice between two blocks, the second of which may be another choice. -/
def ifExpr (g : Grammar) : Parser Expr :=
  loop ([] : List Phrase) fun acc => do
    let if_ ← keyword "if"
    let test ← g.expr false
    let body ← bareBlock g
    let acc := body :: test.phrase :: .word if_ :: acc
    match ← keyword? "else" with
    | none => return .done (.plain .conditional acc.reverse)
    | some else_ =>
      if ← peek (isKeyword "if") then return .more (.word else_ :: acc)
      else if ← peek (isGroup .brace) then
        return .done (.plain .conditional ((← bareBlock g) :: .word else_ :: acc).reverse)
      else failExpected ["`if`", "curly braces"]

/-- A loop that tests before each turn. -/
def whileExpr (g : Grammar) : Parser Expr := do
  let while_ ← keyword "while"
  let test ← g.expr false
  let body ← block g
  return .plain .whileLoop [.word while_, test.phrase, body]

/-- A loop over the values of an iterator. -/
def forExpr (g : Grammar) : Parser Expr := do
  let for_ ← keyword "for"
  let p ← g.patterns
  let in_ ← keyword "in"
  let source ← g.expr false
  let body ← block g
  return .plain .forLoop [.word for_, p.pattern.phrase, .word in_, source.phrase, body]

/-- A loop without a test. -/
def loopExpr (g : Grammar) : Parser Expr := do
  let loop_ ← keyword "loop"
  return .plain .infiniteLoop [.word loop_, ← block g]

/-- Whether an expression must be followed by a comma or semicolon before another one. -/
def needsEnd : ExprKind → Bool
  | .conditional => false
  | .choice => false
  | .block => false
  | .unchecked => false
  | .whileLoop => false
  | .infiniteLoop => false
  | .forLoop => false
  | .tryBlock => false
  | .const => false
  | _ => true

/-- Whether a statement needs a semicolon before another one. -/
def needsSemicolon : ExprKind → Bool
  | .expansion braced => !braced
  | k => needsEnd k

/-- An arm of a choice. -/
def arm (g : Grammar) : Parser Phrase := do
  let attributes ← outerAttributes g
  let p ← g.patterns
  let guard_ ← match ← keyword? "if" with
    | some t => pure [.word t, ← g.anyExpr]
    | none => pure []
  let arrow ← sign "=>"
  let body ← g.early
  let comma ←
    if needsEnd body.kind && !(← isDone) then some <$> mark "," else mark? ","
  return .seq (Attribute.all attributes :: p.pattern.phrase :: guard_ ++
    [.ofTokens arrow, body.phrase, .ofToken? comma])

/-- A choice by patterns. -/
def matchExpr (g : Grammar) : Parser Expr := do
  let match_ ← keyword "match"
  let value ← g.expr false
  let (span, inner, arms) ← within .brace do
    let inner ← innerAttributes g
    return (inner, ← untilDone (arm g))
  return .plain .choice
    [.word match_, value.phrase, .group .brace span (Attribute.all inner :: arms)]

/-- A block as an expression. -/
def blockExpr (g : Grammar) : Parser Expr := do
  return .plain .block [← block g]

/-- A word before a block. -/
def wordBlock (g : Grammar) (kind : ExprKind) (k : String) : Parser Expr := do
  let t ← keyword k
  return .plain kind [.word t, ← block g]

/-- A loop or block with a label. -/
def labeled (g : Grammar) : Parser Expr := do
  let l ← lifetime
  let colon ← mark ":"
  let e ←
    if ← peek (isKeyword "while") then whileExpr g
    else if ← peek (isKeyword "for") then forExpr g
    else if ← peek (isKeyword "loop") then loopExpr g
    else if ← peek (isGroup .brace) then blockExpr g
    else fail "expected loop or block expression"
  return .plain e.kind [.lifetime l, .word colon, e.phrase]

/-- A deferred block. -/
def asyncExpr (g : Grammar) : Parser Expr := do
  let async ← keyword "async"
  let move? ← keyword? "move"
  return .plain .async [.word async, .ofToken? move?, ← bareBlock g]

/-- Text that is kept as it is written. -/
def keptExpr (read : Parser Unit) : Parser Expr := do
  let start ← position
  read
  return .plain .verbatim [.raw (← readSince start)]

/-- Whether `for<` begins a closure. -/
def bindsClosure (ts : List TokenTree) : Bool :=
  let third := next (next ts)
  isSign "<" (next ts) && (isLifetime third || isSign ">" third)

/-- Whether a closure comes next. -/
def opensClosure : Peek := fun ts =>
  let after := next ts
  isSign "|" ts || isKeyword "move" ts || (isKeyword "for" ts && bindsClosure ts) ||
    (isKeyword "const" ts && !isGroup .brace after) || isKeyword "static" ts ||
    (isKeyword "async" ts && (isSign "|" after || isKeyword "move" after))

/-- Whether a deferred block comes next. -/
def opensAsync : Peek := fun ts =>
  let after := next ts
  isKeyword "async" ts &&
    (isGroup .brace after || (isKeyword "move" after && isGroup .brace (next after)))

/-- Whether a path comes next. -/
def opensPathExpr : Peek := fun ts =>
  let after := next ts
  isPathWord ts || isSign "::" ts || isSign "<" ts ||
    (isKeyword "try" ts && (isSign "!" after || isSign "::" after))

/-- An expression without operators around it. -/
def atom (g : Grammar) (allowStruct : Bool) : Parser Expr := do
  let ts ← position
  let after := next ts
  if isFragment ts then fragmentExpr g allowStruct
  else if isLiteral ts then
    let read ← literal
    return .plain (.literal read) [.ofTokens read]
  else if opensAsync ts then asyncExpr g
  else if isKeyword "try" ts && isGroup .brace after then
    let t ← keyword "try"
    return .plain .tryBlock [.word t, ← bareBlock g]
  else if opensClosure ts then closure g allowStruct
  else if isKeyword "builtin" ts && isSign "#" after then
    keptExpr do
      let _ ← keyword "builtin"
      let _ ← sign "#"
      let _ ← name
      let _ ← within .parenthesis everything
  else if opensPathExpr ts then
    let (q, p) ← qualifiedPath g true
    afterPath g q p allowStruct
  else if isGroup .parenthesis ts then parenExpr g
  else if isKeyword "break" ts then breakExpr g allowStruct
  else if isKeyword "continue" ts then
    let t ← keyword "continue"
    let label ← if ← peek isLifetime then some <$> lifetime else pure none
    return .plain .continue (.word t :: label.toList.map .lifetime)
  else if isKeyword "return" ts then wordWithValue g .return "return"
  else if isKeyword "become" ts then
    keptExpr do
      let _ ← keyword "become"
      let _ ← g.expr true
  else if isGroup .bracket ts then bracketExpr g
  else if isKeyword "let" ts then letExpr g allowStruct
  else if isKeyword "if" ts then ifExpr g
  else if isKeyword "while" ts then whileExpr g
  else if isKeyword "for" ts then forExpr g
  else if isKeyword "loop" ts then loopExpr g
  else if isKeyword "match" ts then matchExpr g
  else if isKeyword "yield" ts then wordWithValue g .yield "yield"
  else if isKeyword "unsafe" ts then wordBlock g .unchecked "unsafe"
  else if isKeyword "const" ts then wordBlock g .const "const"
  else if isGroup .brace ts then blockExpr g
  else if isSign ".." ts then return .plain .range (← rangeEnd g allowStruct)
  else if isKeyword "_" ts then return .plain .infer [.word (← anyName)]
  else if isLifetime ts then labeled g
  else fail "expected an expression"

/-- An atom with what follows it, after its attributes. `start` is the stream before these. -/
def trailed (g : Grammar) (start : List TokenTree) (attributes : List Attribute)
    (allowStruct : Bool) : Parser Expr := do
  let first ← atom g allowStruct
  let e ← trailers g first
  match e.kind, attributes with
  | .verbatim, _ => return .plain .verbatim [.raw (← readSince start)]
  | .range, _ :: _ =>
    failAt "attributes are not allowed on range expressions starting with `..`"
      (e.phrase.tokens.take 2)
  | _, _ => return e.attach attributes

/-- An expression without binary operators. -/
def unaryExpr (g : Grammar) (allowStruct : Bool) : Parser Expr := do
  let start ← position
  let attributes ← exprAttributes g
  let ts ← position
  let after := next ts
  if isFragment ts then trailed g start attributes allowStruct
  else if isSign "&" ts then
    let amp ← mark "&"
    let raw? ←
      if isKeyword "raw" after && isKeywordOf ["mut", "const"] (next after) then
        some <$> keyword "raw"
      else pure none
    let mut? ← keyword? "mut"
    let const? ← if raw?.isSome && mut?.isNone then some <$> keyword "const" else pure none
    let e ← g.unary allowStruct
    let kind : ExprKind := if raw?.isSome then .rawAddress else .reference
    return (Expr.plain kind [.word amp, .ofToken? raw?, .ofToken? const?, .ofToken? mut?,
      e.phrase]).attach attributes
  else if isSign "*" ts || isSign "!" ts || isSign "-" ts then
    let op ← if isSign "*" ts then mark "*" else if isSign "!" ts then mark "!" else mark "-"
    let e ← g.unary allowStruct
    return (Expr.plain .unary [.word op, e.phrase]).attach attributes
  else trailed g start attributes allowStruct

/-- Any expression. -/
def anyExpr (g : Grammar) (allowStruct : Bool) : Parser Expr := do
  let first ← g.unary allowStruct
  g.climb first allowStruct .jump

/-- Whether an expression at the beginning of a statement may be continued by operators. -/
def continues : ExprKind → Bool
  | .group inner => continues inner
  | k => needsEnd k

/-- An expression that ends, where it can, with the block that it begins with. -/
def earlyExpr (g : Grammar) : Parser Expr := do
  let attributes ← exprAttributes g
  let ts ← position
  let after := next ts
  let e ←
    if isFragment ts then
      let a ← fragmentExpr g true
      if continues a.kind then trailers g a else pure a
    else if isKeyword "if" ts then ifExpr g
    else if isKeyword "while" ts then whileExpr g
    else if isKeyword "for" ts && !bindsClosure ts then forExpr g
    else if isKeyword "loop" ts then loopExpr g
    else if isKeyword "match" ts then matchExpr g
    else if isKeyword "try" ts && isGroup .brace after then
      let t ← keyword "try"
      pure (.plain .tryBlock [.word t, ← bareBlock g])
    else if isKeyword "unsafe" ts then wordBlock g .unchecked "unsafe"
    else if isKeyword "const" ts && isGroup .brace after then wordBlock g .const "const"
    else if isGroup .brace ts then blockExpr g
    else if isLifetime ts then labeled g
    else g.unary true
  if continues e.kind then g.climb (e.attach attributes) true .jump
  else if ((← peek (isSign ".")) && !(← peek (isSign ".."))) || (← peek (isSign "?")) then
    let e ← trailers g e
    g.climb (e.attach attributes) true .jump
  else return e.attach attributes

end Memoize.Syntax
