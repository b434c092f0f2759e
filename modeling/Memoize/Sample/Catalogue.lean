import Memoize.Call.Memoized
import Memoize.Sample.Routine
import Memoize.Text.Decimal

/-!
# The sample program

Calls of the sample functions, what each is keyed by, and what each does. Arithmetic is that of
machine words. Two methods of a rectangle share one holder in their instance.
-/

namespace Memoize.Sample

/-- A call of a sample function. -/
inductive Call where
  | multiply (x y : Int32)
  | concat (number : Int32) (text : String)
  | answer
  | otherAnswer
  | greet (name marks : String)
  | shadowing (key result cached : UInt32)
  | span (start stop : UInt32) (flag : Bool)
  | countDown (n : UInt32)
  | parseSocket (text : String)
  | fib (n : UInt64)
  | warmUp (n : UInt8)
  | evenHalf (n : UInt32)
  | shout (text : String)
  | ack (m n : UInt64)
  /-- The argument is the list in memory. -/
  | drain
  | swapped (x y : Int64)
  | levelU8 (n : UInt8)
  | levelU16 (n : UInt16)
  /-- The receiver is the rectangle with an index. -/
  | scaledArea (index : Nat) (scale : UInt64)
  | grownArea (index : Nat) (scale : UInt64)
  deriving DecidableEq, Repr

/-- A part of a key. -/
inductive Part where
  | number (value : Int)
  | numbers (values : List Int)
  | flag (value : Bool)
  | text (value : String)
  deriving DecidableEq, Repr

/-- The key of a call. -/
abbrev Key := List Part

/-- A result. -/
inductive Value where
  | unit
  | number (value : Int)
  /-- A word that is too wide for some readers of numbers. -/
  | word (value : UInt64)
  | text (value : String)
  | pair (first second : Int)
  /-- A text that was read as a number. -/
  | accepted (value : Nat)
  /-- A text that was not, and the reason. -/
  | rejected (reason : String)
  deriving DecidableEq, Repr

/-- A result as a word. -/
def Value.toWord : Value → UInt64
  | number n => UInt64.ofInt n
  | word n => n
  | _ => 0

/-- A rectangle. -/
structure Rectangle where
  width : UInt64
  height : UInt64
  deriving DecidableEq, Repr

/-- What arguments refer to: a list of words, and rectangles. -/
structure Memory where
  list : List UInt32
  rectangles : List Rectangle
  deriving DecidableEq, Repr

/-- Where results are kept. -/
inductive Site where
  /-- In the holder of a routine. -/
  | routine (routine : Routine)
  /-- In the rectangle with an index. -/
  | rectangle (index : Nat)
  deriving DecidableEq, Repr

/-- The routine whose holder it is. -/
def Site.routine? : Site → Option Routine
  | routine r => some r
  | rectangle _ => none

/-- Where the result of a call is kept. -/
def Call.site : Call → Site
  | scaledArea index _ => .rectangle index
  | grownArea index _ => .rectangle index
  | multiply .. => .routine .multiply
  | concat .. => .routine .concat
  | answer => .routine .answer
  | otherAnswer => .routine .otherAnswer
  | greet .. => .routine .greet
  | shadowing .. => .routine .shadowing
  | span .. => .routine .span
  | countDown _ => .routine .countDown
  | parseSocket _ => .routine .parseSocket
  | fib _ => .routine .fib
  | warmUp _ => .routine .warmUp
  | evenHalf _ => .routine .evenHalf
  | shout _ => .routine .shout
  | ack .. => .routine .ack
  | drain => .routine .drain
  | swapped .. => .routine .swapped
  | levelU8 _ => .routine .levelU8
  | levelU16 _ => .routine .levelU16

/-- The key of a call: its arguments in order, a pair being one part of it. -/
def Call.key (m : Memory) : Call → Key
  | multiply x y => [.number x.toInt, .number y.toInt]
  | concat n s => [.number n.toInt, .text s]
  | answer => []
  | otherAnswer => []
  | greet name marks => [.text name, .text marks]
  | shadowing key result cached =>
    [.number key.toNat, .number result.toNat, .number cached.toNat]
  | span start stop flag => [.numbers [start.toNat, stop.toNat], .flag flag]
  | countDown n => [.number n.toNat]
  | parseSocket s => [.text s]
  | fib n => [.number n.toNat]
  | warmUp n => [.number n.toNat]
  | evenHalf n => [.number n.toNat]
  | shout s => [.text s]
  | ack m n => [.number m.toNat, .number n.toNat]
  | drain => [.numbers (m.list.map fun n => (n.toNat : Int))]
  | swapped x y => [.number x.toInt, .number y.toInt]
  | levelU8 n => [.number n.toNat]
  | levelU16 n => [.number n.toNat]
  | scaledArea _ scale => [.number scale.toNat]
  | grownArea _ scale => [.number scale.toNat]

/-! ### Bodies -/

/-- The bodies of sample functions. -/
abbrev Body := Computation Call Value Memory

/-- How often a number can be halved until nothing is left. -/
def halvings (n : Nat) : Nat := if n = 0 then 0 else halvings (n / 2) + 1

/-- The greatest number of a socket. -/
def greatestSocket : Nat := 65535

/-- Reads the number of a socket. -/
def readSocket (s : String) : Value :=
  if s.isEmpty then .rejected "empty"
  else match Text.Decimal.read greatestSocket s with
    | .ok n => .accepted n
    | .error e => .rejected e.message

/-- Each number from the second on is the sum of the two before it. -/
def fibBody (n : UInt64) : Body :=
  if n < 2 then .done (.word n)
  else .callThen (.fib (n - 1)) fun a => .callThen (.fib (n - 2)) fun b =>
    .done (.word (a.toWord + b.toWord))

/-- The recursion that nests in its second argument. -/
def ackBody (m n : UInt64) : Body :=
  if m = 0 then .done (.number (n + 1).toNat)
  else if n = 0 then .callThen (.ack (m - 1) 1) .done
  else .callThen (.ack m (n - 1)) fun k => .callThen (.ack (m - 1) k.toWord) .done

/-- The sum of the list, which is emptied. -/
def drainBody : Body :=
  .read fun m => .write { m with list := [] } (.done (.number (m.list.foldl (· + ·) 0).toNat))

/-- The area of a rectangle, multiplied. -/
def scaledAreaBody (index : Nat) (scale : UInt64) : Body :=
  .read fun m =>
    match m.rectangles[index]? with
    | none => .panic "no such rectangle"
    | some r => .done (.word (r.width * r.height * scale))

/-- The area of a rectangle after it was made wider. -/
def grownAreaBody (index : Nat) (scale : UInt64) : Body :=
  .read fun m =>
    match m.rectangles[index]? with
    | none => .panic "no such rectangle"
    | some r =>
      let r := { r with width := r.width + scale }
      .write { m with rectangles := m.rectangles.set index r } (.done (.word (r.width * r.height)))

/-- What a sample function does. -/
def Call.body : Call → Body
  | multiply x y => .done (.number (x * y).toInt)
  | concat n s => .done (.text (toString n.toInt ++ s))
  | answer => .done (.number 42)
  | otherAnswer => .done (.number 7)
  | greet name marks => .done (.text ("hello " ++ name ++ marks))
  | shadowing key result cached => .done (.number (key + result * cached).toNat)
  | span start stop _ => .done (.number (stop - start).toNat)
  | countDown n => .done (.number (halvings n.toNat))
  | parseSocket s => .done (readSocket s)
  | fib n => fibBody n
  | warmUp _ => .done .unit
  | evenHalf n =>
    if n % 2 = 0 then .done (.number (n / 2).toNat)
    else .panic ("odd number: " ++ toString n.toNat)
  | shout s => .done (.text (s.map Char.toUpper))
  | ack m n => ackBody m n
  | drain => drainBody
  | swapped x y => .done (.pair y.toInt x.toInt)
  | levelU8 n => .done (.number n.toNat)
  | levelU16 n => .done (.number (10 * n.toNat))
  | scaledArea index scale => scaledAreaBody index scale
  | grownArea index scale => grownAreaBody index scale

/-- The sample program. -/
def program : Program Call Site Key Value Memory where
  holder := Call.site
  key := fun c m => c.key m
  body := Call.body

/-- The stores that holders start with. -/
def fresh : Site → Store Key Value
  | .routine .shout => .plain .mutex []
  | .routine r => .counted ⟨r.cacheName, [], .zero⟩
  | .rectangle _ => .plain .cell []

end Memoize.Sample
