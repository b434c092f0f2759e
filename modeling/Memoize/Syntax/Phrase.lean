import Memoize.Token

/-!
# Phrases

A phrase is parsed source text. It keeps every token that it will be printed with and marks the
parts that the rules of caching speak of: types by name, references, lifetimes, `impl` types, holes,
and the regions that a rule must not look into.

## Implementation notes

Some parts are printed in another order than they are read in. A `where` clause is read with the
generic parameters and printed after what stands between (`late`); lifetimes are printed before the
other arguments of a list (`lifetimesFirst`). Substitution and the search for offences follow the
order of reading, `tokens` the order of printing.
-/

namespace Memoize

/-- Parsed source text. -/
inductive Phrase where
  /-- A word without a meaning of its own for the rules. -/
  | word (token : Token)
  /-- Tokens that were not parsed, such as the arguments of a macro call. -/
  | raw (tokens : List TokenTree)
  /-- A lifetime. -/
  | lifetime (token : Token)
  /-- A delimited group. -/
  | group (delimiter : Delimiter) (span : Option Span) (parts : List Phrase)
  /-- Parts in a row. -/
  | seq (parts : List Phrase)
  /-- A type by its path, `leading` being the colons before it and `rest` all that follows the first
  name. -/
  | named (leading : List Token) (head : Token) (rest : List Phrase)
  /-- A reference type. -/
  | reference (amp : Token) (region : Option Token) (mutable : Option Token) (target : Phrase)
  /-- An `impl` type. -/
  | implTrait (parts : List Phrase)
  /-- A type that is left to inference. -/
  | hole (token : Token)
  /-- A type in parentheses, or one that was substituted as a whole. -/
  | wrapped (delimiter : Delimiter) (span : Option Span) (inner : Phrase)
  /-- A region in which elided and named lifetimes are not borrowed data: the parameters and the
  result of a function type. -/
  | shielded (parts : List Phrase)
  /-- A method receiver without a written type, and the type it implies. -/
  | receiver (shown : List Phrase) (implied : Phrase)
  /-- A clause that is read before and printed after what stands between. -/
  | late (clause : Phrase) (between : Phrase)
  /-- An entry of a list of parameters or arguments, with the comma after it. -/
  | entry (isLifetime : Bool) (value : Phrase) (comma : Option Token)
  /-- A list that is printed with its lifetimes first. -/
  | lifetimesFirst (entries : List Phrase)
  deriving Repr

namespace Phrase

instance : Inhabited Phrase := ⟨.seq []⟩

/-- The empty phrase. -/
def empty : Phrase := seq []

/-- Words in a row. -/
def ofTokens (ts : List Token) : Phrase := seq (ts.map word)

/-- An optional word. -/
def ofToken? (t : Option Token) : Phrase :=
  match t with
  | some t => word t
  | none => empty

/-- An optional phrase. -/
def ofOption (p : Option Phrase) : Phrase := p.getD empty

/-- Phrases, each followed by a comma or another separator, as one phrase. -/
def ofSeparated (ps : List (Phrase × Option Token)) : Phrase :=
  seq (ps.map fun p => seq [p.1, ofToken? p.2])

/-! ### Printing -/

/-- A printed entry of a list: whether it is a lifetime, its tokens and its comma. -/
structure Row where
  isLifetime : Bool
  value : List TokenTree
  comma : List TokenTree

/-- The tokens of an entry with its comma. -/
def Row.tokens (r : Row) : List TokenTree := r.value ++ r.comma

/-- Prints the lifetimes of a list before the other entries, with a comma between the two if there
is none. -/
def arrange (rows : List Row) : List TokenTree :=
  let lifetimes := rows.filter (·.isLifetime)
  let others := rows.filter (!·.isLifetime)
  let open_ := lifetimes.getLast?.any fun r => r.comma.isEmpty
  lifetimes.flatMap Row.tokens ++
    ((if open_ && !others.isEmpty then TokenTree.ofSign "," else []) ++ others.flatMap Row.tokens)

/-- Whether a type is the bare name `Self`. -/
def isBareSelf : Phrase → Bool
  | named [] head [] => head.word == .name "Self"
  | _ => false

/-- Whether a receiver without a written type implies the type `implied`: `Self`, or a reference to
it if the receiver is one, mutable if it is. -/
def impliesPlainly (shown : List Phrase) (implied : Phrase) : Bool :=
  let isMut := fun
    | word t => t.word == .name "mut"
    | _ => false
  let isAmp := fun
    | word ⟨.mark '&' _, _⟩ => true
    | _ => false
  match implied with
  | reference _ _ mutable target =>
    shown.any isAmp && target.isBareSelf && mutable.isSome == shown.any isMut
  | p => !shown.any isAmp && p.isBareSelf

mutual

/-- The tokens a phrase is printed with. -/
def tokens : Phrase → List TokenTree
  | word t => [.leaf t]
  | raw ts => ts
  | lifetime t => [.leaf t]
  | group d s parts => [.group d s (allTokens parts)]
  | seq parts => allTokens parts
  | named leading head rest => leading.map .leaf ++ (.leaf head :: allTokens rest)
  | reference amp region mutable target =>
    .leaf amp :: (region.toList.map .leaf ++ (mutable.toList.map .leaf ++ target.tokens))
  | implTrait parts => allTokens parts
  | hole t => [.leaf t]
  | wrapped d s inner => [.group d s inner.tokens]
  | shielded parts => allTokens parts
  | receiver shown implied =>
    allTokens shown ++
      (if impliesPlainly shown implied then [] else TokenTree.ofSign ":" ++ implied.tokens)
  | late clause between => between.tokens ++ clause.tokens
  | entry _ value comma => value.tokens ++ comma.toList.map .leaf
  | lifetimesFirst entries => arrange (rows entries)

/-- The tokens of phrases in a row. -/
def allTokens : List Phrase → List TokenTree
  | [] => []
  | p :: rest => p.tokens ++ allTokens rest

/-- The rows of a list. -/
def rows : List Phrase → List Row
  | [] => []
  | entry l v c :: rest => ⟨l, v.tokens, c.toList.map .leaf⟩ :: rows rest
  | p :: rest => ⟨false, p.tokens, []⟩ :: rows rest

end

@[simp] theorem allTokens_nil : allTokens [] = [] := by simp [allTokens]

@[simp] theorem allTokens_cons (p : Phrase) (ps : List Phrase) :
    allTokens (p :: ps) = p.tokens ++ allTokens ps := by simp [allTokens]

@[simp] theorem allTokens_append (ps qs : List Phrase) :
    allTokens (ps ++ qs) = allTokens ps ++ allTokens qs := by
  induction ps with
  | nil => simp
  | cons p ps ih => simp [ih]

/-- A phrase as text. -/
def render (p : Phrase) : String := TokenTree.render p.tokens

/-! ### Looking through wrappings -/

/-- A type without the parentheses and fragments around it. -/
def ungroup : Phrase → Phrase
  | wrapped _ _ inner => inner.ungroup
  | p => p

/-- Whether a type is a reference. -/
def isReference : Phrase → Bool
  | reference .. => true
  | _ => false

/-! ### Substitution -/

mutual

/-- Replaces every type that is the bare name `Self`. -/
def substitute (self : Phrase) : Phrase → Phrase
  | word t => word t
  | raw ts => raw ts
  | lifetime t => lifetime t
  | group d s parts => group d s (substituteAll self parts)
  | seq parts => seq (substituteAll self parts)
  | named leading head rest =>
    if (named leading head rest).isBareSelf then self
    else named leading head (substituteAll self rest)
  | reference amp region mutable target =>
    reference amp region mutable (substitute self target)
  | implTrait parts => implTrait (substituteAll self parts)
  | hole t => hole t
  | wrapped d s inner => wrapped d s (substitute self inner)
  | shielded parts => shielded (substituteAll self parts)
  | receiver shown implied => receiver (substituteAll self shown) (substitute self implied)
  | late clause between => late (substitute self clause) (substitute self between)
  | entry l value comma => entry l (substitute self value) comma
  | lifetimesFirst entries => lifetimesFirst (substituteAll self entries)

/-- Replaces every type that is the bare name `Self` in phrases in a row. -/
def substituteAll (self : Phrase) : List Phrase → List Phrase
  | [] => []
  | p :: rest => substitute self p :: substituteAll self rest

end

end Phrase

end Memoize
