import Memoize.Diagnostic
import Memoize.Syntax.Item

/-!
# Annotations

The attributes that ask for caching, under any path, and the arguments they carry.
-/

namespace Memoize

namespace Attribute

/-- Whether an attribute asks for caching. -/
def isCached (a : Attribute) : Bool := a.path.last.name.word == .name "cached"

/-- The message for an attribute of the wrong form. -/
def wrongForm : String := "expected `#[cached]` or `#[cached(...)]`"

/-- The argument tokens of an attribute. -/
def arguments (a : Attribute) : Except Diagnostic (List TokenTree) :=
  match a.args with
  | .none => .ok []
  | .list _ _ body => .ok body
  | .value .. => .error (Diagnostic.about wrongForm (Phrase.allTokens a.content))

/-- Takes the first attribute that asks for caching out of a list. -/
def takeCached : List Attribute → Option (Attribute × List Attribute)
  | [] => none
  | a :: rest =>
    if a.isCached then some (a, rest)
    else (takeCached rest).map fun r => (r.1, a :: r.2)

end Attribute

/-- Takes the first attribute that asks for caching off a function; those before it are read before
those within it. -/
def Function.takeCached (f : Function) : Option (Attribute × Function) :=
  match Attribute.takeCached f.outer with
  | some (a, outer) => some (a, { f with outer })
  | none => (Attribute.takeCached f.inner).map fun r => (r.1, { f with inner := r.2 })

end Memoize
