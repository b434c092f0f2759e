import Memoize.Parameters
import Memoize.Syntax.Grammar
import Memoize.Token.Lexer

/-!
# Attribute arguments

The arguments of the caching attributes: a list of settings, each given once as `name = value`. A
value is a text or a path; a text may stand for a path. Every fault is reported, and a list with a
fault is of no use.

## Implementation notes

Faults of a setting carry its name, which is part of the message where arguments are parsed on their
own, and is left out where the message becomes a diagnostic of the code.
-/

namespace Memoize

/-- A fault of an argument list, with the setting in whose value it lies. -/
structure ArgumentFault where
  message : String
  place : Place
  setting? : Option String
  deriving Repr

namespace ArgumentFault

/-- The fault as it is reported for arguments on their own. -/
def located (f : ArgumentFault) : Diagnostic :=
  match f.setting? with
  | some s => ⟨f.message ++ " at " ++ s, f.place⟩
  | none => ⟨f.message, f.place⟩

/-- The fault as a diagnostic of the code. -/
def diagnostic (f : ArgumentFault) : Diagnostic := ⟨f.message, f.place⟩

end ArgumentFault

/-- An entry of an argument list. -/
inductive Entry where
  /-- A literal without a name. -/
  | literal (tokens : List Token)
  /-- A name alone. -/
  | word (path : Path)
  /-- A name with a list. -/
  | list (path : Path) (delimiter : Delimiter) (span : Option Span) (body : List TokenTree)
  /-- A name with a value. -/
  | value (path : Path) (equals : List Token) (value : Syntax.Expr)

namespace Entry

open Syntax Parser

/-- The tokens of an entry. -/
def tokens : Entry → List TokenTree
  | literal ts => ts.map .leaf
  | word p => p.tokens
  | list p d s body => p.tokens ++ [.group d s body]
  | value p equals v => p.tokens ++ equals.map .leaf ++ v.phrase.tokens

/-- A path of any names, keywords included. -/
def namePath : Parser Path := do
  let leading ← sign? "::"
  let step (acc : List (List Token × Segment) × List Token) :
      Parser (Turn (List (List Token × Segment) × List Token) (List (List Token × Segment))) := do
    if ← peek isAnyName then
      let n ← anyName
      let acc' := (acc.2, (⟨n, .none⟩ : Segment)) :: acc.1
      if ← peek (isSign "::") then return .more (acc', ← sign "::") else return .done acc'.reverse
    else if acc.1.isEmpty then fail "expected path"
    else fail "expected path segment"
  match ← loop ([], []) step with
  | (_, head) :: tail => return ⟨leading.getD [], head, tail⟩
  | [] => fail "expected path"

/-- Whether a truth value is in fact the name of a setting. -/
def namesTruth (ts : List TokenTree) : Bool :=
  isKeywordOf ["true", "false"] ts && isSign "=" (next ts)

/-- One entry. -/
def rule (g : Grammar) : Parser Entry := do
  let ts ← position
  if isLiteral ts && !namesTruth ts then return .literal (← Parser.literal)
  else if isAnyName ts || (isSign "::" ts && isAnyName (next (next ts))) then
    let p ← namePath
    if ← peek isList then
      let (d, span, body) ← anyGroup
      return .list p d span body
    else if ← peek (isSign "=") then
      let equals ← sign "="
      return .value p equals (← attributeValue g)
    else return .word p
  else fail "expected identifier or literal"

/-- The entries of a list. -/
def all (ts : List TokenTree) : Except Fault (List Entry) :=
  (parse (fun g => commaSeparated (rule g)) ts).map fun es => es.map (·.1)

/-- The name an entry is known by, and nothing for a literal. -/
def name? : Entry → Option String
  | literal _ => none
  | word p => some p.joined
  | list p .. => some p.joined
  | value p .. => some p.joined

end Entry

namespace Setting

open Syntax

/-- What a kind of literal is called in messages. -/
def literalType : LiteralKind → String
  | .text => "string"
  | .byteString => "byte string"
  | .terminated => "unknown"
  | .byte => "byte"
  | .char => "char"
  | .whole => "int"
  | .fraction => "float"
  | .damaged => "verbatim"

/-- What a kind of expression is called in messages. -/
def exprType : ExprKind → String
  | .array => "array"
  | .assign => "assign"
  | .async => "async"
  | .await => "await"
  | .binary _ => "binary"
  | .block => "block"
  | .break => "break"
  | .call => "call"
  | .cast => "cast"
  | .closure => "closure"
  | .const => "const"
  | .continue => "continue"
  | .field => "field"
  | .forLoop => "for_loop"
  | .group _ => "group"
  | .conditional => "if"
  | .index => "index"
  | .infer => "infer"
  | .binding => "let"
  | .literal _ => "lit"
  | .infiniteLoop => "loop"
  | .expansion _ => "macro"
  | .choice => "match"
  | .methodCall => "method_call"
  | .paren => "paren"
  | .path .. => "path"
  | .range => "range"
  | .rawAddress => "unknown"
  | .reference => "reference"
  | .repetition => "repeat"
  | .return => "return"
  | .struct => "struct"
  | .try => "try"
  | .tryBlock => "try_block"
  | .tuple => "tuple"
  | .unary => "unary"
  | .unchecked => "unsafe"
  | .verbatim => "verbatim"
  | .whileLoop => "while"
  | .yield => "yield"

/-- What a literal is called in messages. -/
def tokensType (ts : List Token) : String :=
  match ts.getLast? with
  | some ⟨.literal s, _⟩ => literalType (Literal.kind s)
  | _ => "bool"

/-- The expression inside fragments, and its tokens. -/
def unwrap : ExprKind → Phrase → ExprKind × Phrase
  | .group inner, .seq [.group .invisible _ [p]] => unwrap inner p
  | .group inner, p => (inner, p)
  | k, p => (k, p)

/-- The message for a value of the wrong type. -/
def wrongType (type : String) : String := "Unexpected type `" ++ type ++ "`"

/-- The text that a value stands for. -/
def textOf (kind : ExprKind) (p : Phrase) : Except ArgumentFault String :=
  let fault (type : String) : Except ArgumentFault String :=
    .error ⟨wrongType type, Place.ofTokens p.tokens, none⟩
  match kind with
  | .literal ts =>
    match ts with
    | [⟨.literal s, _⟩] =>
      match Literal.textValue? s with
      | some (v, _) => .ok v
      | none => fault (tokensType ts)
    | _ => fault (tokensType ts)
  | k => fault (exprType k)

mutual

/-- A tree moved to a place. -/
def moveTree (span : Option Span) : TokenTree → TokenTree
  | .leaf t => .leaf { t with span }
  | .group d _ body => .group d span (moveAll span body)

/-- A stream moved to a place. -/
def moveAll (span : Option Span) : List TokenTree → List TokenTree
  | [] => []
  | t :: rest => moveTree span t :: moveAll span rest

end

/-- The path that a text stands for. -/
def pathOfText? (s : String) (span : Option Span) : Option Path :=
  match TokenTree.lex 0 s with
  | some ts => parsePath? (moveAll span ts)
  | none => none

/-- The path that a value stands for. Of a qualified path only the names count. -/
def pathOf (kind : ExprKind) (p : Phrase) : Except ArgumentFault Path :=
  let fault (message : String) : Except ArgumentFault Path :=
    .error ⟨message, Place.ofTokens p.tokens, none⟩
  match kind with
  | .path _ path => .ok path
  | .literal ts =>
    match ts with
    | [⟨.literal s, span⟩] =>
      match Literal.textValue? s with
      | some (v, suffix) =>
        match if suffix.isEmpty then pathOfText? v span else none with
        | some path => .ok path
        | none => fault ("Unknown value: `" ++ v ++ "`")
      | none => fault (wrongType (tokensType ts))
    | _ => fault (wrongType (tokensType ts))
  | k => fault (wrongType (exprType k))

/-- The value of a setting, read by `read`. -/
def value {α : Type} (read : ExprKind → Phrase → Except ArgumentFault α) (setting : String)
    (e : Entry) : Except ArgumentFault α :=
  let fault (message : String) : Except ArgumentFault α :=
    .error ⟨message, Place.ofTokens e.tokens, some setting⟩
  let format (f : String) : Except ArgumentFault α :=
    fault ("Unexpected meta-item format `" ++ f ++ "`")
  match e with
  | .value _ _ v =>
    match read (unwrap v.kind v.phrase).1 (unwrap v.kind v.phrase).2 with
    | .ok a => .ok a
    | .error f => .error { f with setting? := some setting }
  | .list _ _ _ body =>
    match Entry.all body with
    | .ok _ => format "list"
    | .error f => .error ⟨f.message, f.place, some setting⟩
  | .word _ => format "word"
  | .literal _ => format "literal"

/-- The first entry for each setting, and the faults of the list: literals, unknown settings and
repeated ones, `known` being the settings there are. -/
def faultOf (known : List String) (earlier : List Entry) (e : Entry) : Option ArgumentFault :=
  let fault (message : String) : Option ArgumentFault :=
    some ⟨message, Place.ofTokens e.tokens, none⟩
  match e.name? with
  | none => fault "Unexpected meta-item format `literal`"
  | some n =>
    if !known.contains n then
      fault ("Unknown field: `" ++ n ++ "`. Available values: " ++
        ", ".intercalate (known.map fun k => "`" ++ k ++ "`"))
    else if earlier.any fun d => d.name? == some n then fault ("Duplicate field `" ++ n ++ "`")
    else none

end Setting

/-- The arguments of the attribute of a function: the name its cache is reported by, the type of a
custom holder, the field of a holder in an instance, and the path to the runtime. -/
structure CacheArgs where
  name : Option String
  holder : Option Path
  instance_ : Option Path
  cratePath : Option Path
  deriving Repr

/-- The arguments of the attribute of a scope: the path to the runtime. -/
structure ScopeArgs where
  cratePath : Option Path
  deriving Repr

namespace CacheArgs

/-- No arguments. -/
def none : CacheArgs := ⟨.none, .none, .none, .none⟩

/-- The settings there are. -/
def known : List String := ["crate_path", "holder", "instance", "name"]

/-- Takes one entry into account. -/
def add (args : CacheArgs) (setting : String) (e : Entry) : Except ArgumentFault CacheArgs :=
  match setting with
  | "name" => (Setting.value Setting.textOf setting e).map fun v => { args with name := some v }
  | "holder" => (Setting.value Setting.pathOf setting e).map fun v => { args with holder := some v }
  | "instance" =>
    (Setting.value Setting.pathOf setting e).map fun v => { args with instance_ := some v }
  | _ =>
    (Setting.value Setting.pathOf setting e).map fun v => { args with cratePath := some v }

/-- Takes entries into account, in order, collecting the faults. -/
def collect (earlier : List Entry) (args : CacheArgs) (faults : List ArgumentFault) :
    List Entry → CacheArgs × List ArgumentFault
  | [] => (args, faults)
  | e :: rest =>
    match Setting.faultOf known earlier e with
    | some f => collect (earlier ++ [e]) args (faults ++ [f]) rest
    | .none =>
      match args.add (e.name?.getD "") e with
      | .ok args => collect (earlier ++ [e]) args faults rest
      | .error f => collect (earlier ++ [e]) args (faults ++ [f]) rest

/-- What is wrong with arguments that contradict each other. -/
def contradiction? (args : CacheArgs) : Option ArgumentFault :=
  match args.holder, args.instance_ with
  | some h, some _ =>
    some ⟨Refusal.holderAndInstance.message, Place.ofTokens h.tokens, .none⟩
  | .none, some i =>
    if i.single?.isNone then some ⟨Refusal.notAField.message, Place.ofTokens i.tokens, .none⟩
    else .none
  | _, .none => .none

/-- Reads the arguments of the attribute of a function. -/
def parse (ts : List TokenTree) : Except (List ArgumentFault) CacheArgs :=
  match Entry.all ts with
  | .error f => .error [⟨f.message, f.place, .none⟩]
  | .ok es =>
    match collect [] none [] es with
    | (args, []) =>
      match args.contradiction? with
      | some f => .error [f]
      | .none => .ok args
    | (_, faults) => .error faults

/-- The path to the runtime that is used if none is given. -/
def defaultCratePath : Path :=
  let colon (joint : Bool) : Token := ⟨.mark ':' joint, .none⟩
  ⟨[colon true, colon false], ⟨⟨.name "recall", .none⟩, .none⟩, []⟩

/-- The path to the runtime. -/
def effectiveCratePath (args : CacheArgs) : Path := args.cratePath.getD defaultCratePath

/-- The field of a holder in an instance. -/
def field? (args : CacheArgs) : Option Token := args.instance_.bind Path.single?

end CacheArgs

namespace ScopeArgs

/-- The settings there are. -/
def known : List String := ["crate_path"]

/-- Takes entries into account, in order, collecting the faults. -/
def collect (earlier : List Entry) (args : ScopeArgs) (faults : List ArgumentFault) :
    List Entry → ScopeArgs × List ArgumentFault
  | [] => (args, faults)
  | e :: rest =>
    match Setting.faultOf known earlier e with
    | some f => collect (earlier ++ [e]) args (faults ++ [f]) rest
    | none =>
      match Setting.value Setting.pathOf "crate_path" e with
      | .ok p => collect (earlier ++ [e]) ⟨some p⟩ faults rest
      | .error f => collect (earlier ++ [e]) args (faults ++ [f]) rest

/-- Reads the arguments of the attribute of a scope. -/
def parse (ts : List TokenTree) : Except (List ArgumentFault) ScopeArgs :=
  match Entry.all ts with
  | .error f => .error [⟨f.message, f.place, none⟩]
  | .ok es =>
    match collect [] ⟨none⟩ [] es with
    | (args, []) => .ok args
    | (_, faults) => .error faults

end ScopeArgs

end Memoize
