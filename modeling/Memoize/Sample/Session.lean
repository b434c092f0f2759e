import Memoize.Sample.Catalogue

/-!
# Sessions with the sample program

A session performs requests one after the other, and reports after each how many bodies it ran and
what the cache of the called function holds.
-/

namespace Memoize.Sample

/-- A request. -/
inductive Request where
  /-- A call of a routine. -/
  | call (call : Call)
  /-- A call of `drain` with a reference to a list. -/
  | drain (list : List UInt32)
  /-- A call of a method of a rectangle. -/
  | area (index : Nat) (call : Call)
  /-- A new rectangle. -/
  | rectangle (width height : UInt64)
  /-- The cache of a routine is cleared. -/
  | clear (name : String)
  /-- All caches are reported. -/
  | all
  /-- There is no such function. -/
  | unknown

/-- The state of the cache of a routine. -/
structure Report where
  routine : Routine
  name : String
  len : Nat
  stats : CacheStats
  deriving Repr

/-- The answer to a request. -/
inductive Answer where
  | value (value : Value)
  | panicked (message : String)
  /-- The sum of a list, and the list after the call. -/
  | drained (sum : Value) (left : List UInt32)
  /-- The area of a rectangle, its width after the call, and how many results it keeps. -/
  | area (value : Value) (width : UInt64) (stored : Nat)
  | noRectangle
  /-- The index of a new rectangle. -/
  | index (index : Nat)
  /-- Whether there was a cache to clear. -/
  | cleared (found : Bool)
  | all (reports : List Report)
  | noFunction
  /-- The calls nest too deep. -/
  | unfinished
  deriving Repr

/-- An answer with the number of bodies that ran and the state of the cache of the routine. -/
structure Response where
  answer : Answer
  runs : Nat
  report? : Option Report

/-- The state of a session. -/
abbrev Session := Machine Site Key Value Memory

namespace Session

/-- No results, no rectangles. -/
def start : Session := ⟨[], ⟨[], []⟩, []⟩

/-- How deep calls may nest. No machine has room for as many. -/
def depth : Nat := 1000000000000

/-- The state of the cache of a routine, if its holder is one. -/
def report? (s : Session) (r : Routine) : Option Report :=
  (s.store fresh (.routine r)).cache?.map fun c => ⟨r, c.name, c.len, c.stats⟩

/-- Performs a call and answers by its outcome. -/
def perform (s : Session) (c : Call) (answer : Session → Value → Answer) : Response × Session :=
  match program.call fresh depth c s with
  | none => (⟨.unfinished, 0, none⟩, s)
  | some (o, t) =>
    let answer := match o with
      | .value v => answer t v
      | .panicked m => .panicked m
    (⟨answer, t.runs - s.runs, c.site.routine?.bind (report? t)⟩, t)

/-- An answer that needs no call. -/
def reply (s : Session) (a : Answer) : Response × Session := (⟨a, 0, none⟩, s)

/-- What a method of a rectangle answers. -/
def areaAnswer (index : Nat) (t : Session) (v : Value) : Answer :=
  match t.memory.rectangles[index]? with
  | none => .noRectangle
  | some r => .area v r.width (t.store fresh (.rectangle index)).entries.length

/-- Clears the cache of a routine; its counters stay. -/
def clear (s : Session) (name : String) : Response × Session :=
  match Routine.ofName? name with
  | none => s.reply (.cleared false)
  | some r =>
    match (s.store fresh (.routine r)).cache? with
    | none => s.reply (.cleared false)
    | some c => reply (s.setStore (.routine r) (.counted c.clear)) (.cleared true)

/-- Performs a request. -/
def request (s : Session) : Request → Response × Session
  | .call c => s.perform c fun _ v => .value v
  | .drain list =>
    perform { s with memory := { s.memory with list } } .drain fun t v => .drained v t.memory.list
  | .area index c =>
    if index < s.memory.rectangles.length then s.perform c (areaAnswer index)
    else s.reply .noRectangle
  | .rectangle width height =>
    let rectangles := s.memory.rectangles
    reply { s with memory := { s.memory with rectangles := rectangles ++ [⟨width, height⟩] } }
      (.index rectangles.length)
  | .clear name => s.clear name
  | .all => s.reply (.all (Routine.all.filterMap s.report?))
  | .unknown => s.reply .noFunction

end Session

/-- The arguments of a request by position, each read as what the function wants. -/
structure Arguments where
  int : Nat → Int
  text : Nat → String
  flag : Nat → Bool
  list : Nat → List Int

namespace Arguments

/-- An argument truncated to a word of 32 bits. -/
def word (args : Arguments) (n : Nat) : UInt32 := UInt32.ofInt (args.int n)

/-- An argument truncated to a word of 64 bits. -/
def long (args : Arguments) (n : Nat) : UInt64 := UInt64.ofInt (args.int n)

/-- An argument truncated to a signed word of 32 bits. -/
def signed (args : Arguments) (n : Nat) : Int32 := Int32.ofInt (args.int n)

end Arguments

/-- The request for a routine. -/
def Request.ofRoutine (args : Arguments) : Routine → Request
  | .multiply => .call (.multiply (args.signed 0) (args.signed 1))
  | .concat => .call (.concat (args.signed 0) (args.text 1))
  | .answer => .call .answer
  | .otherAnswer => .call .otherAnswer
  | .greet => .call (.greet (args.text 0) (args.text 1))
  | .shadowing => .call (.shadowing (args.word 0) (args.word 1) (args.word 2))
  | .span => .call (.span (args.word 0) (args.word 1) (args.flag 2))
  | .countDown => .call (.countDown (args.word 0))
  | .parseSocket => .call (.parseSocket (args.text 0))
  | .fib => .call (.fib (args.long 0))
  | .warmUp => .call (.warmUp (UInt8.ofInt (args.int 0)))
  | .evenHalf => .call (.evenHalf (args.word 0))
  | .shout => .call (.shout (args.text 0))
  | .ack => .call (.ack (args.long 0) (args.long 1))
  | .drain => .drain ((args.list 0).map UInt32.ofInt)
  | .swapped => .call (.swapped (Int64.ofInt (args.int 0)) (Int64.ofInt (args.int 1)))
  | .levelU8 => .call (.levelU8 (UInt8.ofInt (args.int 0)))
  | .levelU16 => .call (.levelU16 (UInt16.ofInt (args.int 0)))

/-- The request for a function by name. Numbers are truncated to the words that it takes. -/
def Request.of (name : String) (args : Arguments) : Request :=
  match name with
  | "rectangle" => .rectangle (args.long 0) (args.long 1)
  | "scaled_area" => .area (args.long 0).toNat (.scaledArea (args.long 0).toNat (args.long 1))
  | "grown_area" => .area (args.long 0).toNat (.grownArea (args.long 0).toNat (args.long 1))
  | "clear" => .clear (args.text 0)
  | "all" => .all
  | name => ((Routine.ofName? name).map (Request.ofRoutine args)).getD .unknown

end Memoize.Sample
