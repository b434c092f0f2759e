import Memoize.Diagnostic

/-!
# Refusals

Why a definition cannot be cached.
-/

namespace Memoize

/-- Why a definition cannot be memoized. The first two leave the definition as it is, with a
warning; the others are errors of the annotated function. -/
inductive Refusal where
  /-- The annotated definition is not a function with a body. -/
  | notAFunction
  /-- The annotated definition is neither an inline module nor an implementation block. -/
  | notAScope
  /-- The key or the value has no concrete, owned type that can be named. -/
  | unresolvedType (detail : String)
  /-- The receiver of a method does not fit where its results are kept. -/
  | receiver (detail : String)
  /-- The arguments contradict each other. -/
  | arguments (detail : String)
  deriving DecidableEq, Repr

namespace Refusal

/-- The text of a refusal. -/
def message : Refusal → String
  | notAFunction => "annotated item must be a function with a body"
  | notAScope => "`cache_scope` applies to an inline module or an `impl` block"
  | unresolvedType detail => "cannot determine a concrete cache type: " ++ detail
  | receiver detail => detail
  | arguments detail => "invalid `cached` arguments: " ++ detail

/-- The refusal of a stream of tokens. -/
def at_ (r : Refusal) (ts : List TokenTree) : Diagnostic := Diagnostic.about r.message ts

/-- An `impl` type stands for a type without a name. -/
def implTrait : Refusal := unresolvedType "`impl Trait` has no nameable type"

/-- A hole stands for a type that is not written. -/
def hole : Refusal := unresolvedType "`_` must be spelled out"

/-- Borrowed data does not outlive the call. -/
def borrowed : Refusal := unresolvedType "borrowed data must be `'static` to be cached"

/-- `Self` has no meaning outside of its block. -/
def selfType : Refusal :=
  unresolvedType "`Self` is not available to a cache holder; name the type"

/-- A deferred result cannot be stored. -/
def asyncFunction : Refusal :=
  unresolvedType "`async fn` results are futures that cannot be cached"

/-- A constant function cannot look into a cache. -/
def constFunction : Refusal := unresolvedType "a `const fn` cannot read a cache holder"

/-- A generic function has many key and value types. -/
def genericFunction : Refusal :=
  unresolvedType "generic functions have no single key and value type"

/-- A holder outside of a generic block cannot name the parameters of the block. -/
def genericBlock : Refusal :=
  unresolvedType
    ("a `static` holder cannot name the parameters of a generic `impl`; " ++
      "use `#[cached(instance = field)]`")

/-- A method needs a holder in its instance. -/
def method : Refusal :=
  receiver "methods keep one cache per instance: add `#[cached(instance = field)]`"

/-- A holder in an instance needs a borrowed receiver. -/
def notBorrowed : Refusal := receiver "`instance` requires a `&self` or `&mut self` receiver"

/-- A custom holder and a holder in an instance exclude each other. -/
def holderAndInstance : Refusal := arguments "`holder` and `instance` cannot be combined"

/-- The holder in an instance is a field. -/
def notAField : Refusal := arguments "`instance` must name a single field of `self`"

end Refusal

end Memoize
