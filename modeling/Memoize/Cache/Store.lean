import Memoize.Cache

/-!
# Stores

Whatever can keep results: a cache, a map behind a lock or in a cell, and any of these behind a
shared handle. All answer lookups alike; only a cache counts and reports.
-/

namespace Memoize

/-- How a map that is no cache is guarded. -/
inductive Guard where
  /-- One user at a time. -/
  | mutex
  /-- Many readers or one writer. -/
  | rwLock
  /-- A single thread. -/
  | cell
  deriving DecidableEq, Repr

/-- A place that keeps results. -/
inductive Store (K V : Type) where
  /-- A cache. -/
  | counted (cache : Cache K V)
  /-- A guarded map. -/
  | plain (guard : Guard) (entries : Entries K V)
  /-- A handle to a store. -/
  | shared (inner : Store K V)
  deriving Repr

namespace Store

variable {K V : Type} [DecidableEq K]

/-- Looks a key up. -/
def get (k : K) : Store K V → Reply (Option V) (Store K V)
  | counted c => ⟨(c.get k).answer, .counted (c.get k).state, (c.get k).events⟩
  | plain g es => ⟨es.get? k, .plain g es, []⟩
  | shared s => ⟨(s.get k).answer, .shared (s.get k).state, (s.get k).events⟩

/-- Stores a value and answers the one it replaces. -/
def put (k : K) (v : V) : Store K V → Reply (Option V) (Store K V)
  | counted c => ⟨(c.put k v).answer, .counted (c.put k v).state, (c.put k v).events⟩
  | plain g es => ⟨es.get? k, .plain g (es.insert k v), []⟩
  | shared s => ⟨(s.put k v).answer, .shared (s.put k v).state, (s.put k v).events⟩

/-- What a store holds. -/
def entries : Store K V → Entries K V
  | counted c => c.entries
  | plain _ es => es
  | shared s => s.entries

/-- The cache that a store is, if it is one itself. -/
def cache? : Store K V → Option (Cache K V)
  | counted c => some c
  | _ => none

/-- A lookup answers what the store holds. -/
@[simp] theorem get_answer (k : K) (s : Store K V) : (s.get k).answer = s.entries.get? k := by
  induction s with
  | counted c => simp only [get, Cache.get, entries]; cases c.entries.get? k <;> rfl
  | plain g es => rfl
  | shared s ih => simpa [get, entries] using ih

/-- A lookup changes nothing that the store holds. -/
@[simp] theorem entries_get (k : K) (s : Store K V) : (s.get k).state.entries = s.entries := by
  induction s with
  | counted c => simp only [get, Cache.get, entries]; cases c.entries.get? k <;> rfl
  | plain g es => rfl
  | shared s ih => simpa [get, entries] using ih

/-- Storing a value answers what the store held. -/
@[simp] theorem put_answer (k : K) (v : V) (s : Store K V) :
    (s.put k v).answer = s.entries.get? k := by
  induction s with
  | counted c => rfl
  | plain g es => rfl
  | shared s ih => simpa [put, entries] using ih

/-- Storing a value changes the entry of its key. -/
@[simp] theorem entries_put (k : K) (v : V) (s : Store K V) :
    (s.put k v).state.entries = s.entries.insert k v := by
  induction s with
  | counted c => rfl
  | plain g es => rfl
  | shared s ih => simpa [put, entries] using ih

end Store

end Memoize
