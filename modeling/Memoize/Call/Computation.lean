/-!
# Computations

What the body of a function does: it calls memoized functions, reads and changes the memory that its
arguments refer to, and ends with a value or a panic.
-/

namespace Memoize

/-- How a computation ends. -/
inductive Outcome (V : Type) where
  | value (value : V)
  | panicked (message : String)
  deriving DecidableEq, Repr

/-- A computation with calls of type `C`, values of type `V` and memory of type `M`. -/
inductive Computation (C V M : Type) where
  /-- It ends with a value. -/
  | done (value : V)
  /-- It ends without a value. -/
  | panic (message : String)
  /-- It calls a memoized function and goes on, also if it catches a panic of it. -/
  | call (callee : C) (next : Outcome V → Computation C V M)
  /-- It looks at the memory. -/
  | read (next : M → Computation C V M)
  /-- It changes the memory. -/
  | write (memory : M) (next : Computation C V M)

/-- A computation that calls a memoized function and goes on with the value; it does not catch a
panic. -/
def Computation.callThen {C V M : Type} (callee : C) (next : V → Computation C V M) :
    Computation C V M :=
  .call callee fun
    | .value v => next v
    | .panicked t => .panic t

/-- Memoized functions: for every call the holder that keeps its result, the key by which it is
kept, made of the arguments as they are in memory at the call, and the body. -/
structure Program (C H K V M : Type) where
  holder : C → H
  key : C → M → K
  body : C → Computation C V M

/-! ### Without memoization -/

/-- Runs a computation, `callee` running the calls. -/
def Computation.runDirect {C V M : Type} (callee : C → M → Option (Outcome V × M)) :
    Computation C V M → M → Option (Outcome V × M)
  | done v, m => some (.value v, m)
  | panic t, m => some (.panicked t, m)
  | call c next, m =>
    match callee c m with
    | none => none
    | some (o, m) => (next o).runDirect callee m
  | read next, m => (next m).runDirect callee m
  | write m next, _ => next.runDirect callee m

/-- What a call does if nothing is kept, for calls nested less than `depth` deep. -/
def Program.direct {C H K V M : Type} (p : Program C H K V M) :
    (depth : Nat) → C → M → Option (Outcome V × M)
  | 0 => fun _ _ => none
  | n + 1 => fun c m => (p.body c).runDirect (p.direct n) m

end Memoize
