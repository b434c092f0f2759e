/-!
# Sample routines

The memoized functions of the sample program that keep their results in a holder of their own.
-/

namespace Memoize.Sample

/-- A sample function with a holder of its own. -/
inductive Routine where
  | multiply
  | concat
  | answer
  | otherAnswer
  | greet
  | shadowing
  | span
  | countDown
  | parseSocket
  | fib
  | warmUp
  | evenHalf
  | shout
  | ack
  | drain
  | swapped
  | levelU8
  | levelU16
  deriving DecidableEq, Repr

namespace Routine

/-- All routines, in the order of their definitions. -/
def all : List Routine :=
  [multiply, concat, answer, otherAnswer, greet, shadowing, span, countDown, parseSocket, fib,
   warmUp, evenHalf, shout, ack, drain, swapped, levelU8, levelU16]

/-- The list holds every routine. -/
theorem mem_all (r : Routine) : r ∈ all := by cases r <;> simp [all]

/-- The list holds no routine twice, so every routine has one place in it. -/
theorem all_nodup : all.Nodup := by simp [all]

/-- The name of a routine. -/
def name : Routine → String
  | multiply => "multiply"
  | concat => "concat"
  | answer => "answer"
  | otherAnswer => "other_answer"
  | greet => "greet"
  | shadowing => "shadowing"
  | span => "span"
  | countDown => "count_down"
  | parseSocket => "parse_port"
  | fib => "fib"
  | warmUp => "warm_up"
  | evenHalf => "even_half"
  | shout => "shout"
  | ack => "ack"
  | drain => "drain"
  | swapped => "mirrored"
  | levelU8 => "level_u8"
  | levelU16 => "level_u16"

/-- The name a cache is reported by: that of the routine, unless the attribute gives another or the
routine is a method, which goes by its own name in every implementation. -/
def cacheName : Routine → String
  | otherAnswer => "the other"
  | levelU8 => "from"
  | levelU16 => "from"
  | r => r.name

/-- The routine with a name. -/
def ofName? (name : String) : Option Routine := all.find? fun r => r.name == name

end Routine

end Memoize.Sample
