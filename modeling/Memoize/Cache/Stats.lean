/-!
# Lookup counters

How often a cache was asked and answered. The counters are machine words; their sum stops at the
greatest word.
-/

namespace Memoize

/-- The lookups of a cache that found a value, and those that found none. -/
structure CacheStats where
  hits : UInt64
  misses : UInt64
  deriving DecidableEq, Repr

namespace CacheStats

/-- The counters of a new cache. -/
def zero : CacheStats := ⟨0, 0⟩

/-- Counts a lookup that found a value. -/
def hit (s : CacheStats) : CacheStats := { s with hits := s.hits + 1 }

/-- Counts a lookup that found none. -/
def miss (s : CacheStats) : CacheStats := { s with misses := s.misses + 1 }

/-- The greatest counter value. -/
def greatest : Nat := UInt64.size - 1

/-- All lookups, at most the greatest counter value. -/
def lookups (s : CacheStats) : UInt64 :=
  UInt64.ofNat (min (s.hits.toNat + s.misses.toNat) greatest)

/-- The sum of the counters is exact unless it exceeds the greatest word. -/
theorem toNat_lookups (s : CacheStats) :
    s.lookups.toNat = min (s.hits.toNat + s.misses.toNat) greatest := by
  have h : min (s.hits.toNat + s.misses.toNat) greatest < UInt64.size := by
    have : greatest < UInt64.size := by decide
    omega
  simpa [lookups] using Nat.mod_eq_of_lt h

/-- The fields of the counters as text, each by a name. -/
def fields (s : CacheStats) : List (String × String) :=
  [("hits", toString s.hits.toNat), ("misses", toString s.misses.toNat)]

/-- The counters as text on one line. -/
def describe (s : CacheStats) : String :=
  "CacheStats \x7b " ++ ", ".intercalate (s.fields.map fun f => f.1 ++ ": " ++ f.2) ++ " \x7d"

/-- The counters as text with one line for each field, as a part that is indented by `margin`. -/
def describeLines (margin : String) (s : CacheStats) : String :=
  "CacheStats \x7b\n" ++
    String.join (s.fields.map fun f => margin ++ "    " ++ f.1 ++ ": " ++ f.2 ++ ",\n") ++
    margin ++ "\x7d"

end CacheStats

end Memoize
