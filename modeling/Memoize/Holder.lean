import Memoize.Code
import Memoize.Parameters

/-!
# Keys and holders

The key of a call is the tuple of owned copies of its arguments; a reference is owned in the form
that `ToOwned` gives it. A holder maps keys to results. It is a variable of its own, of the type
that the runtime provides or of a custom one, or a field of the instance whose method is called.
-/

namespace Memoize

open TokenTree Code

/-! ### Keys -/

/-- How an argument is owned by a key. -/
inductive Ownership where
  /-- A clone of a value of a type. -/
  | cloned (type : Phrase)
  /-- The owned form of what a reference refers to. -/
  | owned (target : Phrase)
  deriving Repr

/-- A part of the key: the name of a parameter and how its value is owned. -/
structure KeyPart where
  binding : Token
  ownership : Ownership
  deriving Repr

namespace KeyPart

/-- The part of the key for a parameter; wrappings around its type do not matter. -/
def ofParam (p : Param) : KeyPart :=
  match p.type.ungroup with
  | .reference _ _ _ target => ⟨p.binding, .owned target⟩
  | type => ⟨p.binding, .cloned type⟩

/-- The trait whose owned form a type has. -/
def asToOwned (target : Phrase) : List TokenTree :=
  ofSign "<" ++ target.tokens ++ [ofName "as"] ++ globalPath ["std", "borrow", "ToOwned"] ++
    ofSign ">"

/-- The type of the part. -/
def typeTokens (k : KeyPart) : List TokenTree :=
  match k.ownership with
  | .cloned type => type.tokens
  | .owned target => asToOwned target ++ globalPath ["Owned"]

/-- The expression of the part. -/
def exprTokens (k : KeyPart) : List TokenTree :=
  match k.ownership with
  | .cloned _ => Code.cloned (.leaf k.binding)
  | .owned target =>
    asToOwned target ++ globalPath ["to_owned"] ++
      parens (ofSign "&" ++ ofSign "*" ++ [.leaf k.binding])

end KeyPart

/-- The parts of the key of a function. -/
def keyParts (params : List Param) : List KeyPart := params.map KeyPart.ofParam

/-- A tuple, with a comma after every part. -/
def tuple (parts : List (List TokenTree)) : List TokenTree :=
  parens (parts.flatMap fun ts => ts ++ ofSign ",")

/-- The type of the key. -/
def keyType (params : List Param) : List TokenTree :=
  tuple ((keyParts params).map KeyPart.typeTokens)

/-- The expression of the key. -/
def keyExpr (params : List Param) : List TokenTree :=
  tuple ((keyParts params).map KeyPart.exprTokens)

/-! ### Holders -/

/-- The type of a holder that is a variable. -/
inductive HolderKind where
  /-- The cache of the runtime. -/
  | memo
  /-- A custom type, made by its default. -/
  | custom (type : Path)
  deriving Repr

/-- Where the results of a function are kept. -/
inductive Site where
  /-- A variable of its own, with the name its cache is reported by. -/
  | variable (name : Token) (kind : HolderKind) (cacheName : String)
  /-- A field of the instance. -/
  | field (name : Token)
  deriving Repr

/-- The declaration of a holder that is a variable. -/
structure Holder where
  name : Token
  kind : HolderKind
  cacheName : String
  cratePath : Path
  key : List TokenTree
  value : Phrase
  deriving Repr

namespace Holder

/-- The key and the value type between angle brackets. -/
def arguments (h : Holder) : List TokenTree :=
  ofSign "<" ++ h.key ++ ofSign "," ++ h.value.tokens ++ ofSign ">"

/-- The type of the holder. -/
def typeTokens (h : Holder) : List TokenTree :=
  match h.kind with
  | .memo => h.cratePath.tokens ++ globalPath ["MemoCache"] ++ h.arguments
  | .custom type =>
    globalPath ["std", "sync", "LazyLock"] ++ ofSign "<" ++ type.tokens ++ h.arguments ++ ofSign ">"

/-- The initial value of the holder. -/
def initTokens (h : Holder) : List TokenTree :=
  match h.kind with
  | .memo => h.cratePath.tokens ++ globalPath ["MemoCache", "new"] ++ parens [text h.cacheName]
  | .custom type =>
    globalPath ["std", "sync", "LazyLock", "new"] ++ parens (ofSign "<" ++ type.tokens ++
      h.arguments ++ [ofName "as"] ++ globalPath ["core", "default", "Default"] ++ ofSign ">" ++
      globalPath ["default"])

/-- The declaration. -/
def tokens (h : Holder) : List TokenTree :=
  ofName "static" :: .leaf h.name :: ofSign ":" ++ h.typeTokens ++ ofSign "=" ++ h.initTokens ++
    ofSign ";"

end Holder

namespace Site

/-- The declaration of the holder at a site; a field is declared by its struct. -/
def holder? (site : Site) (cratePath : Path) (p : Parameters) : Option Holder :=
  match site with
  | .variable name kind cacheName =>
    some ⟨name, kind, cacheName, cratePath, keyType p.params, p.output⟩
  | .field _ => none

/-- The expression through which the body reaches its holder. -/
def reference : Site → List TokenTree
  | .variable name .memo _ => ofSign "&" ++ [.leaf name]
  | .variable name (.custom _) _ => ofSign "&" ++ ofSign "*" ++ [.leaf name]
  | .field name => ofSign "&" ++ [ofName "self"] ++ ofSign "." ++ [.leaf name]

end Site

/-! ### Bodies -/

/-- The body that looks the result of a call up and runs the body it was made from only if there is
none. -/
structure Body where
  parts : List KeyPart
  holder : List TokenTree
  cratePath : Path
  output : Phrase
  /-- The patterns that take parameters apart, with the names these have. -/
  patterns : List (Pattern × Token)
  statements : List Statement
  deriving Repr

namespace Body

/-- The body of a function. -/
def of (p : Parameters) (statements : List Statement) (site : Site) (cratePath : Path) : Body :=
  ⟨keyParts p.params, site.reference, cratePath, p.output,
    p.params.filterMap fun q => q.pattern?.map fun pattern => (pattern, q.binding), statements⟩

/-- A call of the holder interface. -/
def call (b : Body) (method : String) (arguments : List TokenTree) : List TokenTree :=
  b.cratePath.tokens ++ globalPath ["CacheHolder", method] ++
    parens (b.holder ++ ofSign "," ++ arguments)

/-- The statements that take parameters apart. -/
def destructuring (b : Body) : List TokenTree :=
  b.patterns.flatMap fun p =>
    ofName "let" :: p.1.phrase.tokens ++ ofSign "=" ++ [.leaf p.2] ++ ofSign ";"

/-- The statements of the body it was made from. -/
def retained (b : Body) : List TokenTree := b.statements.flatMap fun s => s.phrase.tokens

/-- The reason given for the way the body is called. -/
def reason : String := "the original body runs only on a cache miss"

/-- The tokens between the braces of the body. -/
def tokens (b : Body) : List TokenTree :=
  let key := ofName "key"
  let result := ofName "result"
  let cached := ofName "cached"
  words ["let"] ++ [key] ++ ofSign "=" ++ tuple (b.parts.map KeyPart.exprTokens) ++ ofSign ";" ++
  words ["if", "let"] ++ globalPath ["core", "option", "Option", "Some"] ++ parens [cached] ++
    ofSign "=" ++ b.call "get" (ofSign "&" ++ [key]) ++
    braces (words ["return"] ++ [cached] ++ ofSign ";") ++
  ofSign "#" ++ brackets (words ["allow"] ++ parens (words ["clippy"] ++ ofSign "::" ++
    words ["redundant_closure_call"] ++ ofSign "," ++ words ["reason"] ++ ofSign "=" ++
    [text reason])) ++
  words ["let"] ++ [result] ++ ofSign ":" ++ b.output.tokens ++ ofSign "=" ++
    parens (ofSign "|" ++ ofSign "|" ++ ofSign "->" ++ b.output.tokens ++
      braces (b.destructuring ++ b.retained)) ++ parens [] ++ ofSign ";" ++
  b.call "put" ([key] ++ ofSign "," ++ Code.cloned result) ++ ofSign ";" ++
  [result]

end Body

/-! ### Parts of a body -/

/-- A part of a memoized body. -/
inductive BodyPart where
  /-- The key is made. -/
  | makeKey
  /-- The result that is kept for the key is answered, if there is one. -/
  | answerFound
  /-- The statements that the body was made from are run. -/
  | runOriginal
  /-- Their result is kept for the key. -/
  | keepResult
  /-- Their result is answered. -/
  | answerResult
  deriving DecidableEq, Repr

/-- The parts of a memoized body, in order. -/
def BodyPart.all : List BodyPart :=
  [.makeKey, .answerFound, .runOriginal, .keepResult, .answerResult]

namespace Body

/-- The closure that takes parameters apart and runs the statements that a body was made from. -/
def closure (b : Body) : List TokenTree :=
  parens (ofSign "|" ++ ofSign "|" ++ ofSign "->" ++ b.output.tokens ++
    braces (b.destructuring ++ b.retained))

/-- The beginning of the statement that binds the result of the closure. -/
def binding (b : Body) : List TokenTree :=
  ofSign "#" ++ brackets (words ["allow"] ++ parens (words ["clippy"] ++ ofSign "::" ++
    words ["redundant_closure_call"] ++ ofSign "," ++ words ["reason"] ++ ofSign "=" ++
    [Code.text reason])) ++
  words ["let"] ++ [ofName "result"] ++ ofSign ":" ++ b.output.tokens ++ ofSign "="

/-- The code of a part. -/
def text (b : Body) : BodyPart → List TokenTree
  | .makeKey =>
    words ["let"] ++ [ofName "key"] ++ ofSign "=" ++ tuple (b.parts.map KeyPart.exprTokens) ++
      ofSign ";"
  | .answerFound =>
    words ["if", "let"] ++ globalPath ["core", "option", "Option", "Some"] ++
      parens [ofName "cached"] ++ ofSign "=" ++ b.call "get" (ofSign "&" ++ [ofName "key"]) ++
      braces (words ["return"] ++ [ofName "cached"] ++ ofSign ";")
  | .runOriginal => b.binding ++ b.closure ++ parens [] ++ ofSign ";"
  | .keepResult =>
    b.call "put" ([ofName "key"] ++ ofSign "," ++ Code.cloned (ofName "result")) ++ ofSign ";"
  | .answerResult => [ofName "result"]

/-- A body consists of its parts. -/
theorem tokens_eq_parts (b : Body) : b.tokens = BodyPart.all.flatMap b.text := by
  have hparts : BodyPart.all.flatMap b.text = b.text .makeKey ++ (b.text .answerFound ++
      (b.text .runOriginal ++ (b.text .keepResult ++ b.text .answerResult))) := by
    simp [BodyPart.all]
  rw [hparts]
  unfold Body.tokens Body.text Body.binding Body.closure
  dsimp only
  simp only [List.append_assoc]

end Body

end Memoize
