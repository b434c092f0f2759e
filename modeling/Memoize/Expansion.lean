import Memoize.Memoized

/-!
# Expansion of a single definition

`Expansion.of` memoizes a definition on its own, `cached` the tokens of one. A definition that
cannot be memoized is kept as it is, and diagnostics follow it as code: errors, or a warning for
definitions that are no functions.
-/

namespace Memoize

open TokenTree Code Syntax

/-! ### Diagnostics as code -/

/-- The error that a diagnostic becomes. -/
def Diagnostic.errorCode (d : Diagnostic) : List TokenTree :=
  globalPath ["core", "compile_error"] ++ ofSign "!" ++ braces [text d.message]

/-- The errors that diagnostics become. -/
def errorCode (ds : List Diagnostic) : List TokenTree := ds.flatMap Diagnostic.errorCode

/-- Tokens followed by errors. -/
def withErrors (ts : List TokenTree) (ds : List Diagnostic) : List TokenTree := ts ++ errorCode ds

/-- A constant whose use is deprecated, so that its use carries a warning. -/
def warningCode (message : String) : List TokenTree :=
  let unit := parens []
  words ["const", "_"] ++ ofSign ":" ++ unit ++ ofSign "=" ++ braces (
    ofSign "#" ++ brackets (words ["deprecated"] ++
      parens (words ["note"] ++ ofSign "=" ++ [text message])) ++
    words ["const", "RECALL_WARNING"] ++ ofSign ":" ++ unit ++ ofSign "=" ++ unit ++ ofSign ";" ++
    words ["RECALL_WARNING"]) ++ ofSign ";"

/-- Tokens followed by a warning. -/
def withWarning (ts : List TokenTree) (message : String) : List TokenTree :=
  ts ++ warningCode message

/-! ### Definitions on their own -/

/-- What becomes of a definition. -/
inductive Expansion where
  /-- It was a function and is memoized. -/
  | transformed (function : MemoizedFunction)
  /-- It is kept as it is. A free item may follow it, unless it only occurs among declarations. -/
  | ineligible (item : List TokenTree) (diagnostic : Diagnostic) (free : Bool)

namespace Expansion

/-- The code of an expansion. -/
def tokens : Expansion → List TokenTree
  | transformed f => f.inline
  | ineligible item d true => withWarning item d.message
  | ineligible item d false => withErrors item [d]

/-- Expands a definition on its own. -/
def of (args : CacheArgs) (item : List TokenTree) (names : Names) :
    Except Failure (Expansion × Names) :=
  match parseFunction? item with
  | none =>
    let free := parseDeclaration? item != some false
    .ok (.ineligible item (Refusal.notAFunction.at_ item) free, names)
  | some f =>
    match Memoized.parts args f.signature f.body names none with
    | .error e => .error e
    | .ok (m, names) => .ok (.transformed (.of f m), names)

end Expansion

/-- The code of a definition with the attribute for functions. The answer is nothing if the added
code would be no code. -/
def cached (arguments item : List TokenTree) : Option (List TokenTree) :=
  match CacheArgs.parse arguments with
  | .error fs => some (withErrors item (fs.map ArgumentFault.diagnostic))
  | .ok args =>
    match Expansion.of args item .empty with
    | .ok (e, _) => some e.tokens
    | .error (.refused ds) => some (withErrors item ds)
    | .error .malformed => none

end Memoize
