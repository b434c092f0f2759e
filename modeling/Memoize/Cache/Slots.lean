import Memoize.Cache.Store

/-!
# Slots

Named slots hold handles to stores. Several slots may hold handles to one store, and then a step
through one of them is seen through the others. Pointing a slot elsewhere changes no store.
-/

namespace Memoize

/-- The kinds of store a slot can be given. -/
inductive StoreKind where
  /-- A cache with a name of its own. -/
  | memo
  /-- A cache with the name that caches have by default. -/
  | standard
  /-- A map behind a guard. -/
  | guarded (guard : Guard)
  /-- A shared handle to a store of a kind. -/
  | handle (inner : StoreKind)
  deriving DecidableEq, Repr

namespace StoreKind

/-- A map behind a mutex and two shared handles. -/
def shared : StoreKind := .handle (.handle (.guarded .mutex))

/-- The empty store of a kind. -/
def store {K V : Type} (name : String) : StoreKind → Store K V
  | memo => .counted ⟨name, [], .zero⟩
  | standard => .counted ⟨Cache.defaultName, [], .zero⟩
  | guarded g => .plain g []
  | handle inner => .shared (inner.store name)

/-- A store of any kind starts with nothing. -/
@[simp] theorem entries_store {K V : Type} (name : String) (kind : StoreKind) :
    (kind.store name : Store K V).entries = [] := by
  induction kind with
  | memo => rfl
  | standard => rfl
  | guarded g => rfl
  | handle inner ih => simpa [store, Store.entries] using ih

end StoreKind

/-- Slots by name, each with the number of its store, and the stores in the order of their making.
-/
structure Slots (K V : Type) where
  handles : Entries String Nat
  stores : List (Store K V)

namespace Slots

variable {K V : Type} [DecidableEq K]

/-- No slots. -/
def empty : Slots K V := ⟨[], []⟩

/-- The number of the store in a slot, and the store. -/
def store? (s : Slots K V) (slot : String) : Option (Nat × Store K V) :=
  match s.handles.get? slot with
  | none => none
  | some n => s.stores[n]?.map fun store => (n, store)

/-- Puts a new store into a slot. -/
def create (s : Slots K V) (slot : String) (store : Store K V) : Slots K V :=
  ⟨s.handles.insert slot s.stores.length, s.stores ++ [store]⟩

/-- Makes a slot hold another handle to the store with a number. -/
def point (s : Slots K V) (slot : String) (n : Nat) : Slots K V :=
  { s with handles := s.handles.insert slot n }

/-- Changes the store with a number. -/
def update (s : Slots K V) (n : Nat) (store : Store K V) : Slots K V :=
  { s with stores := s.stores.set n store }

/-- A step on slots. -/
inductive Step (K V : Type) where
  /-- A new store goes into a slot. -/
  | new (slot : String) (kind : StoreKind) (name : String)
  /-- A slot holds another handle to the store of a slot. -/
  | share (slot source : String)
  /-- A lookup. -/
  | get (slot : String) (key : K)
  /-- A value is stored. -/
  | put (slot : String) (key : K) (value : V)
  /-- A cache is asked for its state. -/
  | inspect (slot : String)
  /-- The entries of a cache are dropped. -/
  | clear (slot : String)

/-- The answer to a step. -/
inductive Answer (K V : Type) where
  /-- The step is done. -/
  | done
  /-- What a lookup found. -/
  | found (value : Option V)
  /-- What a stored value replaced. -/
  | previous (value : Option V)
  /-- The state of a cache. -/
  | state (cache : Cache K V)
  /-- There is nothing in the slot. -/
  | noStore
  /-- The store in the slot is no cache. -/
  | noCache

/-- An answer that leaves the slots as they are. -/
def unchanged (s : Slots K V) (a : Answer K V) : Reply (Answer K V) (Slots K V) := ⟨a, s, []⟩

/-- Performs a step on the store in a slot. -/
def onStore (s : Slots K V) (slot : String)
    (f : Nat → Store K V → Reply (Answer K V) (Slots K V)) : Reply (Answer K V) (Slots K V) :=
  match s.store? slot with
  | none => s.unchanged .noStore
  | some (n, store) => f n store

/-- Performs a step on the cache in a slot. -/
def onCache (s : Slots K V) (slot : String)
    (f : Nat → Cache K V → Reply (Answer K V) (Slots K V)) : Reply (Answer K V) (Slots K V) :=
  s.onStore slot fun n store =>
    match store.cache? with
    | none => s.unchanged .noCache
    | some c => f n c

/-- Performs a step. -/
def step (s : Slots K V) : Step K V → Reply (Answer K V) (Slots K V)
  | .new slot kind name => ⟨.done, s.create slot (kind.store name), []⟩
  | .share slot source => s.onStore source fun n _ => ⟨.done, s.point slot n, []⟩
  | .get slot k => s.onStore slot fun n store =>
    ⟨.found (store.get k).answer, s.update n (store.get k).state, (store.get k).events⟩
  | .put slot k v => s.onStore slot fun n store =>
    ⟨.previous (store.put k v).answer, s.update n (store.put k v).state, (store.put k v).events⟩
  | .inspect slot => s.onCache slot fun _ c => s.unchanged (.state c)
  | .clear slot => s.onCache slot fun n c => ⟨.done, s.update n (.counted c.clear), []⟩

end Slots

end Memoize
