import Memoize.Syntax.Item
import Memoize.Syntax.Stream

/-!
# The grammar, tied together

The rules of the grammar call each other in circles. `Grammar` lists the rules through which the
circles pass; every other rule is an ordinary definition that is given a `Grammar` to call.

## Implementation notes

The results of the rules are phrases with a note of their shape, as far as another rule depends on
it.
-/

namespace Memoize.Syntax

/-! ### Results -/

/-- The shape of a type, where other rules depend on it. -/
inductive TypeShape where
  /-- A path. -/
  | path (qualifier : Option Qualifier) (path : Path)
  /-- Bounds without `dyn`: how many, and whether a plus sign follows the last. -/
  | bounds (count : Nat) (trailing : Bool)
  /-- A type that was substituted as a whole. -/
  | fragment (inner : TypeShape)
  | other

/-- A parsed type. -/
structure ParsedType where
  phrase : Phrase
  shape : TypeShape

/-- The binding strength of binary operators, from the weakest. -/
abbrev Level := Nat

namespace Level

/-- Jumps and closures, which take all that follows. -/
def jump : Level := 0

/-- Assignments. -/
def assign : Level := 1

/-- Ranges. -/
def range : Level := 2

/-- Lazy disjunctions. -/
def or : Level := 3

/-- Lazy conjunctions. -/
def and : Level := 4

/-- Conditional bindings. -/
def binding : Level := 5

/-- Comparisons, which do not chain. -/
def compare : Level := 6

/-- Disjunctions of bits. -/
def bitOr : Level := 7

/-- Exclusive disjunctions of bits. -/
def bitXor : Level := 8

/-- Conjunctions of bits. -/
def bitAnd : Level := 9

/-- Shifts. -/
def shift : Level := 10

/-- Sums and differences. -/
def sum : Level := 11

/-- Products, quotients and remainders. -/
def product : Level := 12

/-- Casts. -/
def cast : Level := 13

end Level

/-- The kinds of expression. -/
inductive ExprKind where
  | array
  | assign
  | async
  | await
  | binary (level : Level)
  | block
  | break
  | call
  | cast
  | closure
  | const
  | continue
  | field
  | forLoop
  | group (inner : ExprKind)
  | conditional
  | index
  | infer
  | binding
  | literal (tokens : List Token)
  | infiniteLoop
  /-- A macro call, and whether its arguments are in braces. -/
  | expansion (braced : Bool)
  | choice
  | methodCall
  | paren
  | path (qualifier : Option Qualifier) (path : Path)
  | range
  | rawAddress
  | reference
  | repetition
  | return
  | struct
  | try
  | tryBlock
  | tuple
  | unary
  | unchecked
  | verbatim
  | whileLoop
  | yield

/-- A parsed expression, and whether attributes are attached to it. -/
structure Expr where
  kind : ExprKind
  phrase : Phrase
  attributed : Bool

namespace Expr

/-- An expression without attributes. -/
def plain (kind : ExprKind) (parts : List Phrase) : Expr := ⟨kind, .seq parts, false⟩

/-- Attaches attributes; text that is kept as written takes none. -/
def attach (e : Expr) (attributes : List Attribute) : Expr :=
  match attributes, e.kind with
  | [], _ => e
  | _, .verbatim => e
  | as, _ => ⟨e.kind, .seq [Attribute.all as, e.phrase], true⟩

end Expr

/-- A parsed pattern, and whether it is `..` or a range with an open end. -/
structure ParsedPattern where
  pattern : Pattern
  isRest : Bool
  isOpenRange : Bool

/-- A parsed `use` tree: its phrase and the names at its ends. -/
structure UseTree where
  phrase : Phrase
  names : List String
  /-- The names that `self` stands for at its ends. -/
  parents : List String
  /-- Whether `self` stands for what comes before the tree. -/
  usesParent : Bool
  /-- Whether a name from the root of all paths stands inside braces. -/
  isRooted : Bool

/-- A parsed bound, and whether it is a trait. -/
structure Bound where
  phrase : Phrase
  isTrait : Bool

/-- The rules through which the grammar is recursive. The truth value given to an expression rule
tells whether a brace after a path opens a struct expression; those given to the type rule tell
whether bounds may be joined by plus signs, and whether a fragment may be given arguments; those
given to the bound rule tell whether captured lifetimes and constness may be written. -/
structure Grammar where
  expr : Bool → Parser Expr
  unary : Bool → Parser Expr
  climb : Expr → Bool → Level → Parser Expr
  early : Parser Expr
  type : Bool → Bool → Parser ParsedType
  bound : Bool → Bool → Parser Bound
  pattern : Parser ParsedPattern
  patterns : Parser ParsedPattern
  statements : Parser (List Statement)
  item : Parser Item
  useTree : Bool → Parser UseTree

namespace Grammar

/-- The grammar that has run out of depth. -/
def exhausted : Grammar where
  expr _ := Parser.fail "too deep"
  unary _ := Parser.fail "too deep"
  climb _ _ _ := Parser.fail "too deep"
  early := Parser.fail "too deep"
  type _ _ := Parser.fail "too deep"
  bound _ _ := Parser.fail "too deep"
  pattern := Parser.fail "too deep"
  patterns := Parser.fail "too deep"
  statements := Parser.fail "too deep"
  item := Parser.fail "too deep"
  useTree _ := Parser.fail "too deep"

/-- A type in a position where bounds may be joined. -/
def anyType (g : Grammar) : Parser Phrase := return (← g.type true true).phrase

/-- A type in a position where bounds must not be joined. -/
def tightType (g : Grammar) : Parser Phrase := return (← g.type false true).phrase

/-- An expression in a position where struct expressions are allowed. -/
def anyExpr (g : Grammar) : Parser Phrase := return (← g.expr true).phrase

end Grammar

end Memoize.Syntax
