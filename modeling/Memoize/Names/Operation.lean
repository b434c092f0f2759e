import Memoize.Names

/-!
# Runs of an allocator

The operations on the names of a scope as values, so that runs of them can be spoken of.
-/

namespace Memoize.Names

/-- An operation on the names of a scope. The first three make new names, the others change the
names there are or ask about them. -/
inductive Operation where
  /-- An empty scope. -/
  | new
  /-- A scope with items. -/
  | items (items : List Item)
  /-- A scope with the members of an implementation block. -/
  | members (members : List Member)
  /-- New names are qualified by an owner. -/
  | qualify (owner : String)
  /-- A written name is taken. -/
  | reserve (name : String)
  /-- The names of items are taken. -/
  | reserveItems (items : List Item)
  /-- The names that a block declares are taken. -/
  | reserveBlock (body : List Statement)
  /-- Whether a name is taken. -/
  | contains (name : String)
  /-- A new name for a function is taken. -/
  | allocate (function : String)

/-- The answer to an operation. -/
inductive Answer where
  | done
  | contained (found : Bool)
  | allocated (name : String)
  deriving DecidableEq, Repr

/-- Performs an operation. The answer is nothing if a new name is no name. -/
def perform (names : Names) : Operation → Option (Answer × Names)
  | .new => some (.done, empty)
  | .items is => some (.done, ofItems is)
  | .members ms => some (.done, ofMembers ms)
  | .qualify owner => some (.done, names.qualify owner)
  | .reserve name => some (.done, names.reserve name)
  | .reserveItems is => some (.done, names.reserveItems is)
  | .reserveBlock body => some (.done, names.reserveBlock body)
  | .contains name => some (.contained (names.contains name), names)
  | .allocate f => (names.allocate f).map fun r => (.allocated r.1, r.2)

end Memoize.Names
