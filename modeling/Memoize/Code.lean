import Memoize.Syntax.Item
import Memoize.Text.Quoted

/-!
# Written code

Tokens of the code that memoization adds.
-/

namespace Memoize.Code

open TokenTree

/-- Several names or keywords in a row. -/
def words (ws : List String) : List TokenTree := ws.map ofName

/-- A path from the root of all paths. -/
def globalPath (names : List String) : List TokenTree :=
  names.flatMap fun n => ofSign "::" ++ [ofName n]

/-- A text literal. -/
def text (s : String) : TokenTree := ofLiteral (Text.Quoted.quote s)

/-- Tokens in parentheses. -/
def parens (ts : List TokenTree) : List TokenTree := [enclose .parenthesis ts]

/-- Tokens in braces. -/
def braces (ts : List TokenTree) : List TokenTree := [enclose .brace ts]

/-- Tokens in brackets. -/
def brackets (ts : List TokenTree) : List TokenTree := [enclose .bracket ts]

/-- An expression cloned by reference. -/
def cloned (name : TokenTree) : List TokenTree :=
  globalPath ["core", "clone", "Clone", "clone"] ++ parens (ofSign "&" ++ [name])

end Memoize.Code
