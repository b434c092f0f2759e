import Memoize.Syntax.Item
import Memoize.Text.Identifier
import Memoize.Text.Uppercase

/-!
# Fresh names

The names used in a scope, and names for holders that collide with none of them. A holder of the
function `f` is named `__F_CACHE_n`, with the least `n` whose name is not taken. A qualified
allocator puts the name of an owner before that of the function.
-/

namespace Memoize

/-- The names taken in a scope, and the owner that qualifies new ones. -/
structure Names where
  taken : List String
  owner : Option String
  deriving Repr

namespace Names

/-- The names of an empty scope. -/
def empty : Names := ⟨[], none⟩

/-- Whether a name is taken. -/
def contains (names : Names) (name : String) : Bool := names.taken.contains name

/-- Takes a name as it is. -/
def take (names : Names) (name : String) : Names :=
  if names.contains name then names else { names with taken := name :: names.taken }

/-- Takes a written name, raw or not. -/
def reserve (names : Names) (name : String) : Names := names.take (unraw name)

/-- Takes several written names. -/
def reserveAll (names : Names) (new : List String) : Names := new.foldl reserve names

/-- Takes the names that items declare. -/
def reserveItems (names : Names) (items : List Item) : Names :=
  names.reserveAll (items.flatMap Item.declares)

/-- Takes the names that the statements of a block declare at its top level. -/
def reserveBlock (names : Names) (body : List Statement) : Names :=
  names.reserveAll (body.flatMap Statement.declares)

/-- The names that a member of an implementation block declares. -/
def memberNames : Member → List String
  | .function f => [f.signature.name.name]
  | .other name? _ => name?.toList

/-- The names of a scope with items. -/
def ofItems (items : List Item) : Names := empty.reserveItems items

/-- The names of a scope with the members of an implementation block. -/
def ofMembers (members : List Member) : Names := empty.reserveAll (members.flatMap memberNames)

/-- Qualifies all new names by an owner. -/
def qualify (names : Names) (owner : String) : Names :=
  { names with owner := some (Text.upper owner) }

/-- What the holder names of a function begin with. -/
def base (names : Names) (function : String) : String :=
  let f := Text.upper (unraw function)
  match names.owner with
  | some owner => "__" ++ owner ++ "_" ++ f ++ "_CACHE"
  | none => "__" ++ f ++ "_CACHE"

/-- The name with a number. -/
def numbered (base : String) (n : Nat) : String := base ++ "_" ++ toString n

/-- The least number whose name is not taken. Among one more numbers than there are taken names one
is free. -/
def freshNumber (names : Names) (base : String) : Nat :=
  ((List.range (names.taken.length + 1)).find? fun n => !names.contains (numbered base n)).getD 0

/-- The new name for a function. -/
def fresh (names : Names) (function : String) : String :=
  numbered (names.base function) (names.freshNumber (names.base function))

/-- Whether a text can stand as a name. -/
def isSpelledName (name : String) : Bool :=
  match name.toList with
  | [] => false
  | c :: rest => Text.isNameStart c && rest.all Text.isNamePart

/-- Takes a new name for a function. The answer is nothing if the owner makes it no name at all. -/
def allocate (names : Names) (function : String) : Option (String × Names) :=
  let name := names.fresh function
  if isSpelledName name then some (name, names.take name) else none

end Names

end Memoize
