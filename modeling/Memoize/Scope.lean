import Memoize.Annotation
import Memoize.Expansion

/-!
# Expansion of a scope

`Scope.expand` memoizes the annotated functions of an inline module or of an implementation block
and puts each holder before the item that uses it. Nested modules are left alone; a function that
cannot be memoized is kept without its attribute, and its diagnostics follow the scope.
-/

namespace Memoize

open TokenTree Syntax

/-! ### Owner names -/

namespace OwnerName

/-- A name as part of an owner name. Its underscores are doubled, since single ones join the parts.
-/
def double (name : String) : String :=
  String.ofList (name.toList.flatMap fun c => if c = '_' then ['_', '_'] else [c])

/-- The letters and digits of a literal. -/
def letters (literal : String) : String :=
  String.ofList (literal.toList.filter Char.isAlphanum)

/-- The words of a token. -/
def ofWord : Word → List String
  | .name n => [double (unraw n)]
  | .lifetime n => [double (unraw n)]
  | .mark _ _ => []
  | .literal s => if (letters s).isEmpty then [] else [letters s]

mutual

/-- The words of a tree. -/
def ofTree : TokenTree → List String
  | .leaf t => ofWord t.word
  | .group _ _ body => ofTrees body

/-- The words of a stream. -/
def ofTrees : List TokenTree → List String
  | [] => []
  | t :: rest => ofTree t ++ ofTrees rest

end

/-- The words of an implementation block: those of its type, then of its trait. -/
def spelled (b : ImplBlock) : List String :=
  ofTrees b.selfType.tokens ++ (b.trait?.map fun t => ofTrees t.path.tokens).getD []

/-- The owner name of an implementation block, if it has any words. -/
def ofBlock (b : ImplBlock) : Option String :=
  if (spelled b).isEmpty then none else some ("_".intercalate (spelled b))

end OwnerName

/-! ### Functions of a scope -/

namespace Scope

/-- Memoizes a function of a scope by the arguments of its attribute. The path to the runtime is
that of the scope if the attribute gives none. -/
def memoize (scope : ScopeArgs) (a : Attribute) (f : Function) (names : Names)
    (owner? : Option Owner) : Except Failure (Memoized × Names) :=
  match a.arguments with
  | .error d => .error (.refused [d])
  | .ok ts =>
    match CacheArgs.parse ts with
    | .error fs => .error (.refused (fs.map ArgumentFault.diagnostic))
    | .ok args =>
      let args := { args with cratePath := args.cratePath.orElse fun _ => scope.cratePath }
      Memoized.parts args f.signature f.body names owner?

/-- What became of a function of a scope. -/
inductive Outcome where
  /-- It asks for no caching. -/
  | untouched (function : Function)
  /-- It is memoized. -/
  | memoized (function : MemoizedFunction)
  /-- It is kept without its attribute, for some reasons. -/
  | refused (function : Function) (diagnostics : List Diagnostic)

namespace Outcome

/-- The function without its holder. -/
def tokens : Outcome → List TokenTree
  | untouched f => f.tokens
  | memoized f => f.tokens
  | refused f _ => f.tokens

/-- The declaration of the holder, if there is one. -/
def holder? : Outcome → Option Holder
  | memoized f => f.parts.holder?
  | _ => none

/-- Why the function is not memoized. -/
def diagnostics : Outcome → List Diagnostic
  | refused _ ds => ds
  | _ => []

end Outcome

/-- Treats one function of a scope. The answer is nothing if the added code would be no code. -/
def function (scope : ScopeArgs) (owner? : Option Owner) (names : Names) (f : Function) :
    Option (Outcome × Names) :=
  match f.takeCached with
  | none => some (.untouched f, names)
  | some (a, f) =>
    match memoize scope a f names owner? with
    | .ok (r, names) => some (.memoized (.of f r), names)
    | .error (.refused ds) => some (.refused f ds, names)
    | .error .malformed => none

/-! ### Implementation blocks -/

/-- A member of a treated block. -/
inductive NewMember where
  | function (outcome : Outcome)
  | kept (member : Member)

namespace NewMember

/-- The tokens of the member. -/
def tokens : NewMember → List TokenTree
  | function o => o.tokens
  | kept m => m.phrase.tokens

/-- The holder of the member, if it has one. -/
def holder? : NewMember → Option Holder
  | function o => o.holder?
  | kept _ => none

/-- Why the member is not memoized. -/
def diagnostics : NewMember → List Diagnostic
  | function o => o.diagnostics
  | kept _ => []

end NewMember

/-- Treats the members of a block in order. -/
def members (scope : ScopeArgs) (owner : Owner) :
    Names → List Member → Option (List NewMember × Names)
  | names, [] => some ([], names)
  | names, .other n p :: rest =>
    (members scope owner names rest).map fun r => (.kept (.other n p) :: r.1, r.2)
  | names, .function f :: rest =>
    match function scope (some owner) names f with
    | none => none
    | some (o, names) =>
      (members scope owner names rest).map fun r => (.function o :: r.1, r.2)

/-- A treated block. -/
structure NewBlock where
  block : ImplBlock
  members : List NewMember

namespace NewBlock

/-- The block without the holders. -/
def tokens (b : NewBlock) : List TokenTree :=
  b.block.header.tokens ++
    [.group .brace b.block.span
      ((Attribute.all b.block.inner).tokens ++ b.members.flatMap NewMember.tokens)]

/-- The holders of the methods, in order. -/
def holders (b : NewBlock) : List Holder := b.members.filterMap NewMember.holder?

/-- Why methods are not memoized, in order. -/
def diagnostics (b : NewBlock) : List Diagnostic := b.members.flatMap NewMember.diagnostics

end NewBlock

/-- Treats an implementation block. -/
def block (scope : ScopeArgs) (names : Names) (b : ImplBlock) : Option (NewBlock × Names) :=
  (members scope (.of b) names b.members).map fun r => (⟨b, r.1⟩, r.2)

/-! ### Modules -/

/-- An item of a treated module, with the holders that go before it. -/
inductive NewItem where
  | function (outcome : Outcome)
  | block (block : NewBlock)
  | kept (item : Item)

namespace NewItem

/-- The holders before the item. -/
def holders : NewItem → List Holder
  | function o => o.holder?.toList
  | block b => b.holders
  | kept _ => []

/-- The item itself. -/
def tokens : NewItem → List TokenTree
  | function o => o.tokens
  | block b => b.tokens
  | kept i => i.tokens

/-- Why functions of the item are not memoized. -/
def diagnostics : NewItem → List Diagnostic
  | function o => o.diagnostics
  | block b => b.diagnostics
  | kept _ => []

end NewItem

/-- Treats one item of a module. -/
def item (scope : ScopeArgs) (names : Names) : Item → Option (NewItem × Names)
  | .function f => (function scope none names f).map fun r => (.function r.1, r.2)
  | .block b => (block scope names b).map fun r => (.block r.1, r.2)
  | i => some (.kept i, names)

/-- Treats the items of a module in order. -/
def items (scope : ScopeArgs) : Names → List Item → Option (List NewItem × Names)
  | names, [] => some ([], names)
  | names, i :: rest =>
    match item scope names i with
    | none => none
    | some (j, names) => (items scope names rest).map fun r => (j :: r.1, r.2)

/-- A treated module. -/
structure NewModule where
  head : ModuleHead
  items : List NewItem

namespace NewModule

/-- The module, every item after its holders. -/
def tokens (m : NewModule) : List TokenTree :=
  let h := m.head
  (Phrase.seq [Attribute.all h.outer, h.visibility, .ofToken? h.unsafety, .word h.mod,
    .word h.name]).tokens ++
    [.group .brace h.span ((Attribute.all h.inner).tokens ++
      m.items.flatMap fun i => i.holders.flatMap Holder.tokens ++ i.tokens)]

/-- Why functions are not memoized, in order. -/
def diagnostics (m : NewModule) : List Diagnostic := m.items.flatMap NewItem.diagnostics

end NewModule

/-- Treats an inline module. Its names are those that its items declare. -/
def module (scope : ScopeArgs) (head : ModuleHead) (is : List Item) : Option NewModule :=
  (items scope (Names.ofItems is) is).map fun r => ⟨head, r.1⟩

/-- The names in the block of an implementation that stands on its own, qualified by the owner. -/
def blockNames (b : ImplBlock) : Names :=
  match OwnerName.ofBlock b with
  | some owner => (Names.ofMembers b.members).qualify owner
  | none => Names.ofMembers b.members

/-- The code of a scope with given arguments. -/
def expandWith (scope : ScopeArgs) (ts : List TokenTree) : Option (List TokenTree) :=
  match parseItem? ts with
  | some (.module head is) =>
    (module scope head is).map fun m => withErrors m.tokens m.diagnostics
  | some (.block b) =>
    (block scope (blockNames b) b).map fun r =>
      withErrors (r.1.holders.flatMap Holder.tokens ++ r.1.tokens) r.1.diagnostics
  | _ => some (withWarning ts Refusal.notAScope.message)

/-- The code of a definition with the attribute for scopes. The answer is nothing if the added code
would be no code. -/
def expand (arguments ts : List TokenTree) : Option (List TokenTree) :=
  match ScopeArgs.parse arguments with
  | .error fs => some (withErrors ts (fs.map ArgumentFault.diagnostic))
  | .ok scope => expandWith scope ts

end Scope

end Memoize
