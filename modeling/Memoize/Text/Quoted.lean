import Memoize.Text.Visible

/-!
# Quoted text

The written form of a text between double quotes, and its reading. `encode` writes a text the way
produced literals are written: quotes, backslashes, tabs and line ends have short escapes, hidden
characters and combining marks are written as code points. `scan` reads a quoted body up to its
closing quote, with every escape a source text may use; it serves text, byte and zero-terminated
literals alike, which differ in the escapes they admit.

## Implementation notes

Reading is a machine over single characters, so that it is structurally recursive on the input.
-/

namespace Memoize.Text.Quoted

/-! ### Writing -/

/-- The digits of a number in base sixteen, in lower case, without leading zeros. -/
def hexDigits (n : Nat) : List Char := Nat.toDigits 16 n

/-- A character written as a code point. -/
def codePoint (c : Char) : List Char :=
  '\\' :: 'u' :: '{' :: (hexDigits c.toNat ++ ['}'])

/-- Whether `c` is an octal digit. -/
def isOctalDigit (c : Char) : Bool := '0' ≤ c && c ≤ '7'

/-- The written form of one character that is not the zero character. -/
def spell (c : Char) : List Char :=
  if c = '"' then ['\\', '"']
  else if c = '\\' then ['\\', '\\']
  else if c = '\t' then ['\\', 't']
  else if c = '\n' then ['\\', 'n']
  else if c = '\r' then ['\\', 'r']
  else if isVisible c then [c]
  else codePoint c

/-- The written form of a text. A zero character before an octal digit is written with two
hexadecimal digits, so that the digit is not taken for a part of it. -/
def encode : List Char → List Char
  | [] => []
  | c :: rest =>
    if c = '\x00' then
      (if rest.head?.any isOctalDigit then ['\\', 'x', '0', '0'] else ['\\', '0']) ++ encode rest
    else spell c ++ encode rest

/-- The written form of a text in which a zero character is always written short. -/
def encodeShort (s : List Char) : List Char :=
  s.flatMap fun c => if c = '\x00' then ['\\', '0'] else spell c

/-- A text between double quotes. -/
def quote (s : String) : String :=
  String.ofList ('"' :: (encode s.toList ++ ['"']))

/-- A text between double quotes, a zero character always being written short. -/
def quoteShort (s : String) : String :=
  String.ofList ('"' :: (encodeShort s.toList ++ ['"']))

/-! ### Reading -/

/-- The literals that share the quoted form. -/
inductive Flavour where
  /-- Text: every character and every escape that names a character. -/
  | text
  /-- Bytes: ASCII characters and escapes that name a byte. -/
  | bytes
  /-- Zero-terminated text: no zero character, neither written nor escaped. -/
  | terminated
  deriving DecidableEq, Repr

/-- What the characters read last mean for the next one. -/
inductive Reading where
  /-- Between characters. -/
  | plain
  /-- After a carriage return, which only a line feed may follow. -/
  | carriage
  /-- After a backslash. -/
  | escape
  /-- Before the two digits of a byte. -/
  | high
  /-- Before the second digit of a byte. -/
  | low (digit : Nat)
  /-- Before the opening brace of a code point. -/
  | brace
  /-- Within a code point, after `count` digits. -/
  | point (value count : Nat)
  /-- In the blanks after an escaped line end. -/
  | gap
  /-- After a carriage return in those blanks. -/
  | gapCarriage
  /-- After the closing quote. -/
  | closed
  deriving DecidableEq, Repr

/-- The value of a hexadecimal digit. -/
def hexValue? (c : Char) : Option Nat :=
  if '0' ≤ c && c ≤ '9' then some (c.toNat - 48)
  else if 'a' ≤ c && c ≤ 'f' then some (c.toNat - 87)
  else if 'A' ≤ c && c ≤ 'F' then some (c.toNat - 55)
  else none

/-- The character with a code point, unless there is none. -/
def charOfPoint? (n : Nat) : Option Char :=
  if n.isValidChar then some (Char.ofNat n) else none

/-- A character that stands for itself. -/
def stepPlain (f : Flavour) (c : Char) : Option (Reading × List Char) :=
  if c = '"' then some (.closed, [])
  else if c = '\\' then some (.escape, [])
  else if c = '\r' then some (.carriage, [])
  else match f with
    | .text => some (.plain, [c])
    | .bytes => if c.toNat < 128 then some (.plain, [c]) else none
    | .terminated => if c = '\x00' then none else some (.plain, [c])

/-- The character after a backslash. -/
def stepEscape (f : Flavour) (c : Char) : Option (Reading × List Char) :=
  match c with
  | 'n' => some (.plain, ['\n'])
  | 'r' => some (.plain, ['\r'])
  | 't' => some (.plain, ['\t'])
  | '\\' => some (.plain, ['\\'])
  | '\'' => some (.plain, ['\''])
  | '"' => some (.plain, ['"'])
  | '0' => if f = .terminated then none else some (.plain, ['\x00'])
  | 'x' => some (.high, [])
  | 'u' => if f = .bytes then none else some (.brace, [])
  | '\n' => some (.gap, [])
  | '\r' => some (.gapCarriage, [])
  | _ => none

/-- The end of a code point: the character it names. -/
def stepPointEnd (f : Flavour) (value : Nat) : Option (Reading × List Char) :=
  match charOfPoint? value with
  | some c => if f = .terminated && c = '\x00' then none else some (.plain, [c])
  | none => none

/-- One character of a quoted body: the next state and the characters it completes. -/
def step (f : Flavour) : Reading → Char → Option (Reading × List Char)
  | .plain, c => stepPlain f c
  | .carriage, c => if c = '\n' then some (.plain, ['\n']) else none
  | .escape, c => stepEscape f c
  | .high, c =>
    match hexValue? c with
    | some d => if f = .text && 8 ≤ d then none else some (.low d, [])
    | none => none
  | .low h, c =>
    match hexValue? c with
    | some d =>
      if f = .terminated && h = 0 && d = 0 then none
      else some (.plain, [Char.ofNat (16 * h + d)])
    | none => none
  | .brace, c => if c = '{' then some (.point 0 0, []) else none
  | .point value count, c =>
    if c = '}' && 0 < count then stepPointEnd f value
    else if c = '_' && 0 < count then some (.point value count, [])
    else match hexValue? c with
      | some d => if count = 6 then none else some (.point (16 * value + d) (count + 1), [])
      | none => none
  | .gap, c =>
    if c = ' ' || c = '\t' || c = '\n' then some (.gap, [])
    else if c = '\r' then some (.gapCarriage, [])
    else stepPlain f c
  | .gapCarriage, c => if c = '\n' then some (.gap, []) else none
  | .closed, _ => none

/-- Reads a quoted body from `state` to its closing quote: the characters it stands for, and what
follows the quote. -/
def scan (f : Flavour) (state : Reading) : List Char → Option (List Char × List Char)
  | [] => if state = .closed then some ([], []) else none
  | c :: rest =>
    if state = .closed then some ([], c :: rest)
    else match step f state c with
      | none => none
      | some (next, out) => (scan f next rest).map fun r => (out ++ r.1, r.2)

/-- Reads one escape, after its backslash, and answers what follows it. -/
def scanEscape (f : Flavour) (state : Reading) : List Char → Option (List Char)
  | [] => none
  | c :: rest =>
    match step f state c with
    | some (.plain, _) => some rest
    | some (.gap, _) => none
    | some (.gapCarriage, _) => none
    | some (next, _) => scanEscape f next rest
    | none => none

/-- The text that a quoted body stands for, the body beginning after the opening quote. -/
def decode (s : List Char) : Option (List Char) :=
  (scan .text .plain s).map (·.1)

/-! ### Unescaped bodies -/

/-- Splits off `n` fence characters that close a raw body. -/
def dropFence : Nat → List Char → Option (List Char)
  | 0, rest => some rest
  | n + 1, '#' :: rest => dropFence n rest
  | _ + 1, _ => none

/-- Reads a raw body, in which nothing is escaped, to a quote followed by `fence` fence characters.
-/
def scanRaw (f : Flavour) (fence : Nat) : List Char → Option (List Char × List Char)
  | [] => none
  | c :: rest =>
    match if c = '"' then dropFence fence rest else none with
    | some after => some ([], after)
    | none =>
      if c = '\r' && rest.head? != some '\n' then none
      else if f = .bytes && 128 ≤ c.toNat then none
      else if f = .terminated && c = '\x00' then none
      else (scanRaw f fence rest).map fun r => (c :: r.1, r.2)

/-- Reads the fence and the quote that open a raw body, and answers the length of the fence. -/
def openRaw (count : Nat) : List Char → Option (Nat × List Char)
  | '"' :: rest => if count ≤ 255 then some (count, rest) else none
  | '#' :: rest => openRaw (count + 1) rest
  | _ => none

end Memoize.Text.Quoted
