import Memoize.Arguments
import Memoize.Holder
import Memoize.Names

/-!
# Memoized functions

`Memoized.parts` turns the signature and body of one function into a holder, a signature in which
every parameter has one name, and a body that looks results up. A function that cannot be memoized
is refused, and then the names of its scope stay as they are.

## Implementation notes

Added code is checked against the grammar before it is used: a path or a type that does not fit its
place makes the code malformed, which is a failure of its own.
-/

namespace Memoize

open TokenTree Code Syntax

/-- The implementation block a method belongs to: its type, and whether it has generic parameters.
-/
structure Owner where
  selfType : Phrase
  isGeneric : Bool
  deriving Repr

/-- The owner that an implementation block is. -/
def Owner.of (b : ImplBlock) : Owner := ⟨b.selfType, !b.generics.params.isEmpty⟩

/-- Why a function is not memoized. -/
inductive Failure where
  /-- It cannot be cached. -/
  | refused (diagnostics : List Diagnostic)
  /-- The added code would be no code. -/
  | malformed

/-- The memoized parts of a function. -/
structure Memoized where
  holder? : Option Holder
  signature : Signature
  body : Body
  deriving Repr

namespace Memoized

/-- The rules for the types of a function. -/
def rules (args : CacheArgs) (owner? : Option Owner) : TypeRules :=
  if args.field?.isSome then TypeRules.permissive else ⟨owner?.map Owner.selfType, true⟩

/-- Whether a holder that is a variable would have to name the parameters of its block. -/
def isInGenericBlock (args : CacheArgs) (owner? : Option Owner) : Bool :=
  args.field?.isNone && owner?.any Owner.isGeneric

/-- Whether the receiver of a function fits where its results are kept. -/
def checkReceiver (args : CacheArgs) (s : Signature) (p : Parameters) :
    Except (List Diagnostic) Unit :=
  if args.field?.isSome then
    if p.hasBorrowedReceiver then .ok () else .error [Refusal.notBorrowed.at_ [.leaf s.name]]
  else match p.receiver? with
    | some r => .error [Refusal.method.at_ r.phrase.tokens]
    | none => .ok ()

/-- The parameters of a function that can be cached. -/
def accept (args : CacheArgs) (s : Signature) (owner? : Option Owner) :
    Except (List Diagnostic) Parameters :=
  if isInGenericBlock args owner? then .error [Refusal.genericBlock.at_ [.leaf s.name]]
  else match Parameters.extract (rules args owner?) s with
    | .error e => .error e
    | .ok p => (checkReceiver args s p).map fun _ => p

/-- Where the results of a function are kept, and the names after that. The answer is nothing if the
new name is no name. -/
def place (args : CacheArgs) (s : Signature) (body : List Statement) (names : Names) :
    Option (Site × Names) :=
  match args.field? with
  | some field => some (.field field, names)
  | none =>
    ((names.reserveBlock body).allocate s.name.name).map fun r =>
      let kind : HolderKind := match args.holder with
        | some type => .custom type
        | none => .memo
      (.variable ⟨.name r.1, none⟩ kind (args.name.getD (unraw s.name.name)), r.2)

/-- Whether the holder and the body for a site are code. -/
def isWellFormed (p : Parameters) (site : Site) (cratePath : Path) (body : Body) : Bool :=
  (body.parts.all fun k =>
    parses Grammar.anyType k.typeTokens && parses Grammar.anyExpr k.exprTokens) &&
  parses Grammar.anyType (keyType p.params) && parses Grammar.anyExpr (keyExpr p.params) &&
  ((site.holder? cratePath p).all fun h => parses (·.item) h.tokens) &&
  parses Grammar.anyExpr site.reference && (parseBlock? (braces body.tokens)).isSome

/-- The memoized parts for a site, if they are code. -/
def build (s : Signature) (p : Parameters) (body : List Statement) (site : Site)
    (cratePath : Path) : Option Memoized :=
  let new := Body.of p body site cratePath
  if isWellFormed p site cratePath new then
    some ⟨site.holder? cratePath p, p.rebind s, new⟩
  else none

/-- Memoizes the signature and body of one function, in a block of the owner if there is one. The
names are changed only if it is memoized. -/
def parts (args : CacheArgs) (s : Signature) (body : List Statement) (names : Names)
    (owner? : Option Owner) : Except Failure (Memoized × Names) :=
  match accept args s owner? with
  | .error ds => .error (.refused ds)
  | .ok p =>
    match place args s body names with
    | none => .error .malformed
    | some (site, names) =>
      match build s p body site args.effectiveCratePath with
      | none => .error .malformed
      | some m => .ok (m, names)

/-- The body with its braces. -/
def block (m : Memoized) : List TokenTree := braces m.body.tokens

end Memoized

/-- A function with its memoized parts. -/
structure MemoizedFunction where
  outer : List Attribute
  visibility : Phrase
  default? : Option Token
  inner : List Attribute
  parts : Memoized
  deriving Repr

namespace MemoizedFunction

/-- Puts memoized parts into a function. -/
def of (f : Function) (parts : Memoized) : MemoizedFunction :=
  ⟨f.outer, f.visibility, f.default?, f.inner, parts⟩

/-- The function, `first` being the statements before its body. -/
def tokensWith (f : MemoizedFunction) (first : List TokenTree) : List TokenTree :=
  (Attribute.all f.outer).tokens ++ f.visibility.tokens ++ f.default?.toList.map .leaf ++
    f.parts.signature.tokens ++
    braces ((Attribute.all f.inner).tokens ++ first ++ f.parts.body.tokens)

/-- The function without its holder. -/
def tokens (f : MemoizedFunction) : List TokenTree := f.tokensWith []

/-- The declaration of the holder, if it is a variable. -/
def holderTokens (f : MemoizedFunction) : List TokenTree :=
  (f.parts.holder?.map Holder.tokens).getD []

/-- The definitions for the scope of the function: the holder first, then the function. -/
def definitions (f : MemoizedFunction) : List (List TokenTree) :=
  f.parts.holder?.toList.map Holder.tokens ++ [f.tokens]

/-- The function with its holder at the top of its body. -/
def inline (f : MemoizedFunction) : List TokenTree := f.tokensWith f.holderTokens

end MemoizedFunction

end Memoize
