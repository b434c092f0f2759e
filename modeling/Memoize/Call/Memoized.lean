import Memoize.Cache.Store
import Memoize.Call.Computation

/-!
# Memoized calls

A memoized call makes its key from the arguments as they are when it starts, and answers the result
kept under the key if there is one. Otherwise it runs the body and keeps its result under the same
key; a body that panics leaves nothing behind. Nested calls are memoized as well.

## Implementation notes

The first argument of `Program.call` bounds how deep calls nest. A run that ends does not depend on
the bound.
-/

namespace Memoize

/-- What happens to a call. -/
inductive Stage where
  /-- It starts. -/
  | called
  /-- Nothing is kept for it, and its body starts. -/
  | started
  /-- Its body ends with a value, which is kept. -/
  | completed
  deriving DecidableEq, Repr

/-- Something that happened to the calls of a key with a holder. -/
structure Occurrence (H K : Type) where
  stage : Stage
  holder : H
  key : K
  deriving DecidableEq, Repr

/-- The stores that differ from new ones, the memory, and what happened so far, latest first. -/
structure Machine (H K V M : Type) where
  stores : Entries H (Store K V)
  memory : M
  history : List (Occurrence H K)

namespace Machine

variable {H K V M : Type} [DecidableEq H]

/-- The store of a holder, `fresh` being what holders start with. -/
def store (fresh : H → Store K V) (s : Machine H K V M) (h : H) : Store K V :=
  (s.stores.get? h).getD (fresh h)

/-- Changes the store of a holder. -/
def setStore (s : Machine H K V M) (h : H) (store : Store K V) : Machine H K V M :=
  { s with stores := s.stores.insert h store }

/-- Takes down what happens. -/
def note (s : Machine H K V M) (stage : Stage) (h : H) (k : K) : Machine H K V M :=
  { s with history := ⟨stage, h, k⟩ :: s.history }

/-- How many bodies have started. -/
def runs (s : Machine H K V M) : Nat := s.history.countP fun o => o.stage == .started

@[simp] theorem store_setStore_self (fresh : H → Store K V) (s : Machine H K V M) (h : H)
    (store : Store K V) : (s.setStore h store).store fresh h = store := by
  simp [Machine.store, setStore]

/-- Changing the store of a holder leaves the other holders alone. -/
theorem store_setStore_of_ne (fresh : H → Store K V) (s : Machine H K V M) {h i : H} (hne : i ≠ h)
    (store : Store K V) : (s.setStore h store).store fresh i = s.store fresh i := by
  simp [Machine.store, setStore, Entries.get?_insert_of_ne hne]

end Machine

/-- What a call does to a machine; there is no answer if it nests too deep. -/
abbrev Callee (C H K V M : Type) :=
  C → Machine H K V M → Option (Outcome V × Machine H K V M)

/-- Runs a computation, `callee` running the calls. -/
def Computation.run {C H K V M : Type} (callee : Callee C H K V M) :
    Computation C V M → Machine H K V M → Option (Outcome V × Machine H K V M)
  | done v, s => some (.value v, s)
  | panic t, s => some (.panicked t, s)
  | call c next, s =>
    match callee c s with
    | none => none
    | some (o, s) => (next o).run callee s
  | read next, s => (next s.memory).run callee s
  | write m next, s => next.run callee { s with memory := m }

namespace Program

variable {C H K V M : Type} [DecidableEq H] [DecidableEq K]

/-- Keeps the result of a body that ended. -/
def keep (fresh : H → Store K V) (h : H) (k : K) :
    Outcome V × Machine H K V M → Outcome V × Machine H K V M
  | (.panicked t, s) => (.panicked t, s)
  | (.value v, s) =>
    (.value v, (s.setStore h ((s.store fresh h).put k v).state).note .completed h k)

/-- A memoized call, `callee` running the calls of its body. -/
def step (p : Program C H K V M) (fresh : H → Store K V) (callee : Callee C H K V M) :
    Callee C H K V M := fun c s =>
  let h := p.holder c
  let k := p.key c s.memory
  let r := (s.store fresh h).get k
  let s := (s.note .called h k).setStore h r.state
  match r.answer with
  | some v => some (.value v, s)
  | none => ((p.body c).run callee (s.note .started h k)).map (keep fresh h k)

/-- A memoized call, for calls nested less than `depth` deep. -/
def call (p : Program C H K V M) (fresh : H → Store K V) : (depth : Nat) → Callee C H K V M
  | 0 => fun _ _ => none
  | n + 1 => p.step fresh (p.call fresh n)

end Program

end Memoize
