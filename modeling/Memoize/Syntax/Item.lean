import Memoize.Syntax.Path

/-!
# Items

Functions, implementation blocks and modules, as far as memoization takes them apart. Every other
item is kept as a phrase, with the names it declares.
-/

namespace Memoize

/-- The arguments of an attribute. -/
inductive AttributeArgs where
  /-- None. -/
  | none
  /-- A delimited list, not parsed. -/
  | list (delimiter : Delimiter) (span : Option Span) (body : List TokenTree)
  /-- A value after an equals sign. -/
  | value (equals : List Token) (value : Phrase)
  deriving Repr

/-- An attribute: its marks, the place of its brackets, its path and its arguments. -/
structure Attribute where
  marks : List Token
  span : Option Span
  path : Path
  args : AttributeArgs
  deriving Repr

namespace Attribute

/-- The part between the brackets. -/
def content (a : Attribute) : List Phrase :=
  a.path.phrase ::
    match a.args with
    | .none => []
    | .list d span body => [.raw [.group d span body]]
    | .value equals value => [.ofTokens equals, value]

/-- The attribute as a phrase. -/
def phrase (a : Attribute) : Phrase :=
  .seq [.ofTokens a.marks, .group .bracket a.span a.content]

/-- The attribute as tokens. -/
def tokens (a : Attribute) : List TokenTree := a.phrase.tokens

/-- Attributes in a row. -/
def all (as : List Attribute) : Phrase := .seq (as.map phrase)

end Attribute

/-- A parameter pattern or any other pattern: its text, the name it binds if it binds its value
whole under one name, and all names it binds. -/
structure Pattern where
  phrase : Phrase
  plain? : Option Token
  binds : List String
  deriving Repr

/-- A method receiver. -/
structure Receiver where
  attributes : List Attribute
  amp? : Option Token
  lifetime? : Option Token
  mut? : Option Token
  self : Token
  /-- The colon and the type after it, if they are written. -/
  explicit? : Option (Token × Phrase)
  deriving Repr

namespace Receiver

/-- The receiver up to `self`. -/
def shown (r : Receiver) : List Phrase :=
  r.amp?.toList.map .word ++ r.lifetime?.toList.map .lifetime ++ r.mut?.toList.map .word ++
    [.word r.self]

/-- The type of the receiver, written or implied. -/
def type (r : Receiver) : Phrase :=
  match r.explicit? with
  | some (_, t) => t
  | none =>
    let self : Phrase := .named [] ⟨.name "Self", r.self.span⟩ []
    match r.amp? with
    | some amp => .reference amp r.lifetime? r.mut? self
    | none => self

/-- The receiver without its attributes. -/
def bare (r : Receiver) : Phrase :=
  match r.explicit? with
  | some (colon, t) => .seq (r.shown ++ [.word colon, t])
  | none => .receiver r.shown r.type

/-- The receiver as a phrase. -/
def phrase (r : Receiver) : Phrase := .seq [Attribute.all r.attributes, r.bare]

/-- Whether the method borrows its receiver. -/
def isBorrowed (r : Receiver) : Bool := r.type.isReference

end Receiver

/-- A parameter of a function. -/
inductive Input where
  | receiver (receiver : Receiver)
  | typed (attributes : List Attribute) (pattern : Pattern) (colon : Token) (type : Phrase)
  deriving Repr

/-- The parameter as a phrase. -/
def Input.phrase : Input → Phrase
  | receiver r => r.phrase
  | typed attributes pattern colon type =>
    .seq [Attribute.all attributes, pattern.phrase, .word colon, type]

/-- A generic parameter, with the comma after it. -/
structure GenericParam where
  isLifetime : Bool
  phrase : Phrase
  comma : Option Token
  deriving Repr

/-- The generic parameters of an item, with the angle brackets around them. -/
structure Generics where
  opening : Option Token
  params : List GenericParam
  closing : Option Token
  deriving Repr

namespace Generics

/-- No generic parameters. -/
def none : Generics := ⟨.none, [], .none⟩

/-- The parameters as a phrase; empty brackets are not printed. -/
def phrase (g : Generics) : Phrase :=
  if g.params.isEmpty then .empty
  else .seq [.ofToken? g.opening,
    .lifetimesFirst (g.params.map fun p => .entry p.isLifetime p.phrase p.comma),
    .ofToken? g.closing]

end Generics

/-- The head of a function. -/
structure Signature where
  const? : Option Token
  async? : Option Token
  unsafety : Option Token
  abi : Phrase
  fn : Token
  name : Token
  generics : Generics
  span : Option Span
  inputs : List (Input × Option Token)
  variadic : Phrase
  output? : Option (List Token × Phrase)
  conditions : Phrase
  deriving Repr

namespace Signature

/-- The words before the name. -/
def qualifiers (s : Signature) : List Phrase :=
  [.ofToken? s.const?, .ofToken? s.async?, .ofToken? s.unsafety, s.abi]

/-- The parameter list. -/
def inputList (s : Signature) : Phrase :=
  .group .parenthesis s.span
    [.ofSeparated (s.inputs.map fun i => (i.1.phrase, i.2)), s.variadic]

/-- The result after its arrow. -/
def result (s : Signature) : Phrase :=
  match s.output? with
  | some (arrow, type) => .seq [.ofTokens arrow, type]
  | none => .empty

/-- The signature as a phrase. -/
def phrase (s : Signature) : Phrase :=
  .seq (s.qualifiers ++ [.word s.fn, .word s.name, s.generics.phrase,
    .late s.conditions (.seq [s.inputList, s.result])])

/-- The signature as tokens. -/
def tokens (s : Signature) : List TokenTree := s.phrase.tokens

/-- The receiver, if there is one. -/
def receiver? (s : Signature) : Option Receiver :=
  s.inputs.findSome? fun
    | (.receiver r, _) => some r
    | _ => none

end Signature

/-- A statement, with the names that it declares if it is an item. -/
structure Statement where
  phrase : Phrase
  declares : List String
  deriving Repr

/-- A statement that declares nothing. -/
def Statement.silent (parts : List Phrase) : Statement := ⟨.seq parts, []⟩

/-- A function with its body. -/
structure Function where
  outer : List Attribute
  visibility : Phrase
  default? : Option Token
  signature : Signature
  inner : List Attribute
  span : Option Span
  body : List Statement
  deriving Repr

namespace Function

/-- All attributes, those before the function first. -/
def attributes (f : Function) : List Attribute := f.outer ++ f.inner

/-- The function as a phrase. -/
def phrase (f : Function) : Phrase :=
  .seq [Attribute.all f.outer, f.visibility, .ofToken? f.default?, f.signature.phrase,
    .group .brace f.span (Attribute.all f.inner :: f.body.map (·.phrase))]

/-- The function as tokens. -/
def tokens (f : Function) : List TokenTree := f.phrase.tokens

end Function

/-- A member of an implementation block. Of a member that is no function only the name of a constant
or type is known. -/
inductive Member where
  | function (function : Function)
  | other (name? : Option String) (phrase : Phrase)
  deriving Repr

/-- The member as a phrase. -/
def Member.phrase : Member → Phrase
  | function f => f.phrase
  | other _ p => p

/-- The trait that a block implements: its polarity, its path and the word `for`. -/
structure TraitRef where
  polarity : Option Token
  path : Path
  for_ : Token
  deriving Repr

/-- An implementation block. -/
structure ImplBlock where
  outer : List Attribute
  default? : Option Token
  unsafety : Option Token
  impl : Token
  generics : Generics
  trait? : Option TraitRef
  selfType : Phrase
  conditions : Phrase
  span : Option Span
  inner : List Attribute
  members : List Member
  deriving Repr

namespace ImplBlock

/-- The block up to its members. -/
def header (b : ImplBlock) : Phrase :=
  let trait : Phrase :=
    match b.trait? with
    | some t => .seq [.ofToken? t.polarity, t.path.phrase, .word t.for_]
    | none => .empty
  .seq [Attribute.all b.outer, .ofToken? b.default?, .ofToken? b.unsafety, .word b.impl,
    b.generics.phrase, .late b.conditions (.seq [trait, b.selfType])]

/-- The block as a phrase. -/
def phrase (b : ImplBlock) : Phrase :=
  .seq [b.header,
    .group .brace b.span (Attribute.all b.inner :: b.members.map Member.phrase)]

/-- The block as tokens. -/
def tokens (b : ImplBlock) : List TokenTree := b.phrase.tokens

end ImplBlock

/-- The head of an inline module. -/
structure ModuleHead where
  outer : List Attribute
  visibility : Phrase
  unsafety : Option Token
  mod : Token
  name : Token
  span : Option Span
  inner : List Attribute
  deriving Repr

/-- An item. Items that memoization does not take apart come with the names they declare. Further
names are those of functions and variables that are defined elsewhere, those that `self` stands for
at the end of a used path, and those of items in forms that are kept as they are written. -/
inductive Item where
  | function (function : Function)
  | block (block : ImplBlock)
  | module (head : ModuleHead) (items : List Item)
  | other (names : List String) (further : List String) (phrase : Phrase)
  deriving Repr

namespace Item

mutual

/-- The item as a phrase. -/
def phrase : Item → Phrase
  | function f => f.phrase
  | block b => b.phrase
  | module h items =>
    .seq [Attribute.all h.outer, h.visibility, .ofToken? h.unsafety, .word h.mod, .word h.name,
      .group .brace h.span (Attribute.all h.inner :: phrases items)]
  | other _ _ p => p

/-- Items in a row. -/
def phrases : List Item → List Phrase
  | [] => []
  | i :: rest => i.phrase :: phrases rest

end

/-- The item as tokens. -/
def tokens (i : Item) : List TokenTree := i.phrase.tokens

/-- The names that an item declares in its scope, but for further ones. -/
def declares : Item → List String
  | function f => [f.signature.name.name]
  | block _ => []
  | module h _ => [h.name.name]
  | other names _ _ => names

/-- The further names that an item declares in its scope. -/
def declaresFurther : Item → List String
  | other _ further _ => further
  | _ => []

end Item

end Memoize
