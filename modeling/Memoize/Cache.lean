import Memoize.Cache.Entries
import Memoize.Cache.Event
import Memoize.Cache.Stats
import Memoize.Text.Quoted

/-!
# Caches

A cache is a named map that counts its lookups and reports lookups and stored values. Counters live
as long as the cache; dropping the entries does not reset them.
-/

namespace Memoize

/-- What an operation answers, leaves behind and reports. -/
structure Reply (α σ : Type) where
  answer : α
  state : σ
  events : List Event

/-- A named map with counters. -/
structure Cache (K V : Type) where
  name : String
  entries : Entries K V
  stats : CacheStats
  deriving Repr

namespace Cache

variable {K V : Type} [DecidableEq K]

/-- A new cache. -/
def new (name : String) : Cache K V := ⟨name, [], .zero⟩

/-- The name of a cache that is given none. -/
def defaultName : String := "memo"

/-- A report about a cache. -/
def event (c : Cache K V) (activity : Activity) : Event := ⟨c.name, activity⟩

/-- Looks a key up. -/
def get (c : Cache K V) (k : K) : Reply (Option V) (Cache K V) :=
  match c.entries.get? k with
  | some v => ⟨some v, { c with stats := c.stats.hit }, [c.event .hit]⟩
  | none => ⟨none, { c with stats := c.stats.miss }, [c.event .miss]⟩

/-- Stores a value and answers the one it replaces. -/
def put (c : Cache K V) (k : K) (v : V) : Reply (Option V) (Cache K V) :=
  ⟨c.entries.get? k, { c with entries := c.entries.insert k v }, [c.event .inserted]⟩

/-- Drops all entries. -/
def clear (c : Cache K V) : Cache K V := { c with entries := [] }

/-- The number of entries. -/
def len (c : Cache K V) : Nat := c.entries.length

/-- Whether there are no entries. -/
def isEmpty (c : Cache K V) : Bool := c.len == 0

/-- A cache as text on one line. -/
def describe (c : Cache K V) : String :=
  "MemoCache \x7b name: " ++ Text.Quoted.quoteShort c.name ++ ", len: " ++ toString c.len ++
    ", stats: " ++ c.stats.describe ++ ", .. \x7d"

/-- A cache as text with one line for each field. -/
def describeLines (c : Cache K V) : String :=
  "MemoCache \x7b\n    name: " ++ Text.Quoted.quoteShort c.name ++ ",\n    len: " ++
    toString c.len ++ ",\n    stats: " ++ c.stats.describeLines "    " ++ ",\n    ..\n\x7d"

end Cache

end Memoize
