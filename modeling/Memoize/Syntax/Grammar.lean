import Memoize.Syntax.Grammar.Item

/-!
# The whole grammar

`Grammar.upTo n` follows the recursion of the grammar `n` levels deep. A text of `w` words and
groups nests at most a fixed multiple of `w` levels, so `Grammar.forTokens` is deep enough for it.
-/

namespace Memoize.Syntax

namespace Grammar

/-- The grammar with one more level over `g`. -/
def deepen (g : Grammar) : Grammar where
  expr := Syntax.anyExpr g
  unary := unaryExpr g
  climb := Syntax.climb g
  early := earlyExpr g
  type := Syntax.type g
  bound := Syntax.bound g
  pattern := Syntax.pattern g
  patterns := Syntax.patterns g
  statements := Syntax.statements g
  item := Syntax.item g
  useTree := Syntax.useTree g

/-- The grammar of a depth. -/
def upTo : Nat → Grammar
  | 0 => exhausted
  | n + 1 => deepen (upTo n)

/-- The grammar that is deep enough for a stream. -/
def forTokens (ts : List TokenTree) : Grammar := upTo (8 * TokenTree.totalWeight ts + 64)

end Grammar

/-- Parses a whole stream by a rule of the grammar. -/
def parse {α : Type} (rule : Grammar → Parser α) (ts : List TokenTree) : Except Fault α :=
  Parser.run (rule (Grammar.forTokens ts)) ts

/-- Whether a stream as a whole has the form of a rule. -/
def parses {α : Type} (rule : Grammar → Parser α) (ts : List TokenTree) : Bool :=
  match parse rule ts with
  | .ok _ => true
  | .error _ => false

/-- A type. -/
def parseType? (ts : List TokenTree) : Option Phrase := (parse Grammar.anyType ts).toOption

/-- A path as in a type. -/
def parsePath? (ts : List TokenTree) : Option Path := (parse (path · false) ts).toOption

/-- A function with a body. -/
def parseFunction? (ts : List TokenTree) : Option Function := (parse function ts).toOption

/-- A function declaration, as in a trait, and whether it has a body. -/
def parseDeclaration? (ts : List TokenTree) : Option Bool := (parse declaration ts).toOption

/-- An implementation block. -/
def parseImplBlock? (ts : List TokenTree) : Option ImplBlock :=
  ((parse (implBlock · true) ts).toOption).join

/-- An item. -/
def parseItem? (ts : List TokenTree) : Option Item := (parse (·.item) ts).toOption

/-- The items of a source file. -/
def parseFile? (ts : List TokenTree) : Option (List Item) := (parse file ts).toOption

/-- Attributes before an item, and nothing after them. -/
def parseAttributes? (ts : List TokenTree) : Option (List Attribute) :=
  (parse outerAttributes ts).toOption

/-- The statements of a block with its braces. -/
def parseBlock? (ts : List TokenTree) : Option (List Statement) :=
  (parse (fun g => do
    let (_, stmts) ← Parser.within .brace g.statements
    return stmts) ts).toOption

/-- A name that may be declared. -/
def parseName? (ts : List TokenTree) : Option Token := (parse (fun _ => Parser.name) ts).toOption

end Memoize.Syntax
