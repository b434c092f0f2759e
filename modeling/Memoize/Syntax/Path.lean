import Memoize.Syntax.Phrase

/-!
# Paths

A path is a sequence of names joined by double colons, each with optional arguments; it may start at
a qualified type.
-/

namespace Memoize

/-- The arguments of a path segment. -/
inductive SegmentArgs where
  /-- None. -/
  | none
  /-- Between angle brackets, possibly after a double colon; `entries` are entry phrases. -/
  | angle (colons : List Token) (opening : Token) (entries : List Phrase) (closing : Token)
  /-- The parameters and the result of a callable. -/
  | call (parts : List Phrase)
  deriving Repr

/-- A name in a path, with its arguments. -/
structure Segment where
  name : Token
  args : SegmentArgs
  deriving Repr

/-- A path: colons before it, its first segment, and the further ones after their colons. -/
structure Path where
  leading : List Token
  head : Segment
  tail : List (List Token × Segment)
  deriving Repr

/-- The qualified type at the start of a path. The first `inside` segments stand within its angle
brackets, after `as`. -/
structure Qualifier where
  opening : Token
  type : Phrase
  as? : Option Token
  inside : Nat
  closing : Token
  deriving Repr

/-- The name of a word that is a name, and the empty text for others. -/
def Token.name (t : Token) : String :=
  match t.word with
  | .name n => n
  | _ => ""

namespace SegmentArgs

/-- Whether there are no arguments, or none between the brackets. -/
def isEmpty : SegmentArgs → Bool
  | none => true
  | angle _ _ entries _ => entries.isEmpty
  | call _ => false

/-- Whether there is nothing after the name. -/
def isNone : SegmentArgs → Bool
  | none => true
  | _ => false

/-- The arguments as phrases. -/
def phrases : SegmentArgs → List Phrase
  | none => []
  | angle colons opening entries closing =>
    colons.map .word ++ [.word opening, .lifetimesFirst entries, .word closing]
  | call parts => [.shielded parts]

end SegmentArgs

namespace Segment

/-- A segment as phrases. -/
def phrases (s : Segment) : List Phrase := .word s.name :: s.args.phrases

end Segment

namespace Path

/-- The path that is a single name. -/
def ofName (t : Token) : Path := ⟨[], ⟨t, .none⟩, []⟩

/-- The segments of a path, each with the colons before it. -/
def segments (p : Path) : List (List Token × Segment) := (p.leading, p.head) :: p.tail

/-- The last segment. -/
def last (p : Path) : Segment := (p.tail.getLast?.map (·.2)).getD p.head

/-- Changes the arguments of the last segment. -/
def setLastArgs (p : Path) (args : SegmentArgs) : Path :=
  match p.tail.reverse with
  | [] => { p with head := { p.head with args } }
  | (colons, s) :: before => { p with tail := (( colons, { s with args }) :: before).reverse }

/-- Whether no segment has arguments. -/
def isPlain (p : Path) : Bool := p.segments.all fun s => s.2.args.isNone

/-- The name of a path that is a single name without arguments. -/
def single? (p : Path) : Option Token :=
  if p.leading.isEmpty && p.tail.isEmpty && p.head.args.isNone then some p.head.name else none

/-- The path as phrases. -/
def phrases (p : Path) : List Phrase :=
  p.segments.flatMap fun s => s.1.map .word ++ s.2.phrases

/-- The path as a phrase without a meaning of its own. -/
def phrase (p : Path) : Phrase := .seq p.phrases

/-- The path as a type. -/
def type (p : Path) : Phrase :=
  .named p.leading p.head.name
    (p.head.args.phrases ++ p.tail.flatMap fun s => s.1.map .word ++ s.2.phrases)

/-- The tokens of a path. -/
def tokens (p : Path) : List TokenTree := p.phrase.tokens

/-- The names of a path, joined by double colons. -/
def joined (p : Path) : String :=
  "::".intercalate (p.segments.map fun s => s.2.name.name)

end Path

namespace Qualifier

/-- A qualified path as phrases. -/
def phrases (q : Qualifier) (p : Path) : List Phrase :=
  let written (s : List Token × Segment) : List Phrase := s.1.map .word ++ s.2.phrases
  let inner := (p.segments.take q.inside).flatMap written
  let outer := (p.segments.drop q.inside).flatMap written
  .word q.opening :: q.type ::
    (if q.inside = 0 then [] else .ofToken? q.as? :: inner) ++ .word q.closing :: outer

end Qualifier

end Memoize
