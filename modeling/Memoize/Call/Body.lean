import Mathlib.Data.List.Forall2
import Memoize.Call.Memoized
import Memoize.Memoized

/-!
# Memoized bodies at work

What the body of a memoized function does, part by part: it makes the key from the variables of its
call, asks its holder, runs the statements that it was made from, and keeps their result under the
key. A variable holds a value, or a reference to a place that other variables may refer to as well,
and the statements may change both.

## Implementation notes

The statements of a body are not looked into: what they do is given as a computation. The key and
the result of a body are no variables of its call, since their names are told apart from all written
ones.
-/

namespace Memoize

/-! ### Variables -/

/-- What a variable holds, `L` being places and `D` values. -/
inductive Content (L D : Type) where
  /-- A value of its own. -/
  | value (datum : D)
  /-- A reference to a place. -/
  | reference (place : L)
  deriving DecidableEq, Repr

/-- The variables of a call, by their names. -/
abbrev Frame (L D : Type) := Entries Token (Content L D)

/-- The variables of the calls that are under way, those of the latest first, and the values at the
places that references refer to. -/
structure Memory (L D : Type) where
  frames : List (Frame L D)
  places : L → D

section Variables

variable {L D : Type}

/-- The value that a variable stands for. -/
def Content.read (places : L → D) : Content L D → D
  | value d => d
  | reference l => places l

/-- Whether a parameter that is owned in a way can hold something: what is cloned is a value, and
what is owned in another form is referred to. -/
def Content.fits : Content L D → Ownership → Bool
  | value _, .cloned _ => true
  | reference _, .owned _ => true
  | _, _ => false

namespace Memory

/-- The memory when a call starts. -/
def enter (frame : Frame L D) (m : Memory L D) : Memory L D :=
  { m with frames := frame :: m.frames }

/-- The memory when a call has ended. -/
def leave (m : Memory L D) : Memory L D := { m with frames := m.frames.tail }

/-- A variable of the latest call. -/
def content? (m : Memory L D) (name : Token) : Option (Content L D) :=
  m.frames.head?.bind (Entries.get? name)

end Memory

/-- The owned copy of a variable for a part of a key: a clone of its value, or the owned form of
what it refers to. -/
def KeyPart.copy? (m : Memory L D) (k : KeyPart) : Option D :=
  match k.ownership, m.content? k.binding with
  | .cloned _, some (.value d) => some d
  | .owned _, some (.reference l) => some (m.places l)
  | _, _ => none

/-- The copies for the parts of a key, in order. -/
def copies? (m : Memory L D) : List KeyPart → Option (List D)
  | [] => some []
  | k :: rest => (k.copy? m).bind fun d => (copies? m rest).map (d :: ·)

end Variables

/-! ### Calls -/

/-- A function that was memoized and whose parameters have different names. -/
structure Written where
  memoized : Memoized
  written : ∃ args s body names owner? names',
    Memoized.parts args s body names owner? = .ok (memoized, names')
  distinct : memoized.signature.names.Nodup

/-- A call of one of several memoized functions, with the contents of its parameters. -/
structure FunctionCall {F : Type} (code : F → Written) (L D : Type) where
  function : F
  receiver? : Option (Content L D)
  arguments : List (Content L D)
  fits : List.Forall₂ (fun k a => a.fits k.ownership) (code function).memoized.body.parts arguments

namespace FunctionCall

variable {F L D : Type} {code : F → Written}

/-- The memoized function that is called. -/
def callee (c : FunctionCall code L D) : Memoized := (code c.function).memoized

/-- The variables with which a call starts: the parameters under the names that the signature gives
them, and the receiver. -/
def frame (c : FunctionCall code L D) : Frame L D :=
  c.callee.signature.names.zip c.arguments ++
    (c.callee.signature.receiver?.map Receiver.self).toList.zip c.receiver?.toList

/-- The values that the arguments of a call stand for. -/
def values (c : FunctionCall code L D) (m : Memory L D) : List D :=
  c.arguments.map (Content.read m.places)

end FunctionCall

/-- Memoized functions that call each other: where the results of each are kept, which may be up to
the receiver, and what the closure in its body does with the variables of a call. -/
structure Library {F : Type} (code : F → Written) (H V L D : Type) where
  holder : F → Option (Content L D) → H
  original : F → Computation (FunctionCall code L D) V (Memory L D)

/-! ### Execution -/

/-- The key and the result of a body, as far as it has them. -/
structure Locals (K V : Type) where
  key? : Option K
  result? : Option V

/-- What a part of a body leads to. -/
inductive Progress (K V S : Type) where
  /-- The body goes on. -/
  | next (locals : Locals K V) (state : S)
  /-- The body ends. -/
  | ended (outcome : Outcome V) (state : S)

/-- A computation after which the memory is changed, however it ends. -/
def Computation.ending {C V M : Type} (last : M → M) : Computation C V M → Computation C V M
  | done v => .read fun m => .write (last m) (.done v)
  | panic t => .read fun m => .write (last m) (.panic t)
  | call c next => .call c fun o => (next o).ending last
  | read next => .read fun m => (next m).ending last
  | write m next => .write m (next.ending last)

namespace Library

variable {F H V L D : Type} {code : F → Written} [DecidableEq H] [DecidableEq D]

/-- A machine on which memoized functions run. Keys are lists of values. -/
abbrev State (H V L D : Type) := Machine H (List D) V (Memory L D)

/-- What runs the calls of memoized functions. -/
abbrev Runs (code : F → Written) (H V L D : Type) :=
  Callee (FunctionCall code L D) H (List D) V (Memory L D)

/-- Where the result of a call is kept. -/
def holderOf (lib : Library code H V L D) (c : FunctionCall code L D) : H :=
  lib.holder c.function c.receiver?

/-- Executes a part of the body of a call. -/
def execute (lib : Library code H V L D) (fresh : H → Store (List D) V)
    (callee : Runs code H V L D) (c : FunctionCall code L D) :
    BodyPart → Locals (List D) V → State H V L D → Option (Progress (List D) V (State H V L D))
  | .makeKey, l, s =>
    (copies? s.memory c.callee.body.parts).map fun k => .next { l with key? := some k } s
  | .answerFound, l, s =>
    l.key?.map fun k =>
      let r := (s.store fresh (lib.holderOf c)).get k
      let s := (s.note .called (lib.holderOf c) k).setStore (lib.holderOf c) r.state
      match r.answer with
      | some v => .ended (.value v) s
      | none => .next l s
  | .runOriginal, l, s =>
    l.key?.bind fun k =>
      ((lib.original c.function).run callee (s.note .started (lib.holderOf c) k)).map fun
        | (.value v, s) => .next { l with result? := some v } s
        | (.panicked t, s) => .ended (.panicked t) s
  | .keepResult, l, s =>
    l.key?.bind fun k => l.result?.map fun v =>
      let h := lib.holderOf c
      .next { l with key? := none }
        ((s.setStore h ((s.store fresh h).put k v).state).note .completed h k)
  | .answerResult, l, s => l.result?.map fun v => .ended (.value v) s

/-- Executes parts of the body of a call until it ends. -/
def executeAll (lib : Library code H V L D) (fresh : H → Store (List D) V)
    (callee : Runs code H V L D) (c : FunctionCall code L D) :
    List BodyPart → Locals (List D) V → State H V L D → Option (Outcome V × State H V L D)
  | [], _, _ => none
  | i :: rest, l, s =>
    match lib.execute fresh callee c i l s with
    | none => none
    | some (.ended o s) => some (o, s)
    | some (.next l s) => lib.executeAll fresh callee c rest l s

/-- Executes the body of a call, with its variables. -/
def invoke (lib : Library code H V L D) (fresh : H → Store (List D) V)
    (callee : Runs code H V L D) : Runs code H V L D := fun c s =>
  (lib.executeAll fresh callee c BodyPart.all ⟨none, none⟩
      { s with memory := s.memory.enter c.frame }).map fun r =>
    (r.1, { r.2 with memory := r.2.memory.leave })

/-- Executes the body of a call, for calls nested less than `depth` deep. -/
def run (lib : Library code H V L D) (fresh : H → Store (List D) V) :
    (depth : Nat) → Runs code H V L D
  | 0 => fun _ _ => none
  | n + 1 => lib.invoke fresh (lib.run fresh n)

/-- The memoized calls of a library: the key is made of the values that the arguments stand for when
the call starts. -/
def program (lib : Library code H V L D) :
    Program (FunctionCall code L D) H (List D) V (Memory L D) where
  holder := lib.holderOf
  key c m := c.values m
  body c := .read fun m => .write (m.enter c.frame) ((lib.original c.function).ending Memory.leave)

end Library

end Memoize
