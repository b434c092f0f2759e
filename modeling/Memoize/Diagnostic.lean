import Memoize.Token

/-!
# Diagnostics

A diagnostic is a message about a place in the sources.
-/

namespace Memoize

/-- Where a diagnostic points: nowhere, or from one token to another. -/
inductive Place where
  | nowhere
  | range (first last : Option Span)
  deriving DecidableEq, Repr

/-- A message and the place it is about. -/
structure Diagnostic where
  message : String
  place : Place
  deriving DecidableEq, Repr

namespace Place

/-- The place of a single token. -/
def ofSpan (s : Option Span) : Place := .range s s

/-- The place from the first to the last token of a stream. -/
def ofTokens (ts : List TokenTree) : Place :=
  match ts.head?, ts.getLast? with
  | some a, some b => .range a.span b.span
  | _, _ => .nowhere

/-- The range of characters a place covers: both ends if they lie in one source, else the first
token only. -/
def extent? : Place → Option Span
  | nowhere => none
  | range none _ => none
  | range (some a) none => some a
  | range (some a) (some b) =>
    if a.source = b.source then some ⟨a.source, min a.start b.start, max a.stop b.stop⟩ else some a

end Place

/-- A diagnostic about the whole of a stream. -/
def Diagnostic.about (message : String) (ts : List TokenTree) : Diagnostic :=
  ⟨message, Place.ofTokens ts⟩

end Memoize
