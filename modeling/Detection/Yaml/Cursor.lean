/-! # A place in a settings document

Line feeds are the only ASCII line ends here: a document is read with its line ends unified. Scalars
are code points, since an escape may name a surrogate.
-/

namespace Detection.Yaml

inductive Problem where
  | malformed
  | codePoint
  /-- An escape for a number that is too large to be looked at. -/
  | overflow
  /-- Collections inside each other for which there is no room. -/
  | depth
  | noValue (message : String)
  | noFlag (word : String)
  | noDigits
  | noTime
  /-- A whole number among floating ones that is too large for them. -/
  | noReal
  deriving DecidableEq, Repr

structure Cursor where
  rest : List Char
  index : Nat
  line : Nat
  column : Nat

def isBreak (c : Char) : Bool :=
  c = '\n' || c = '\x85' || c = '\u2028' || c = '\u2029'

def isGap (c : Option Char) : Bool :=
  match c with
  | none => true
  | some c => c = ' ' || c = '\t' || isBreak c

def isLineEnd (c : Option Char) : Bool :=
  match c with
  | none => true
  | some c => isBreak c

def isSpaceEnd (c : Option Char) : Bool := c = some ' ' || isLineEnd c

def isWordChar (c : Char) : Bool := c.isAlphanum || c = '-' || c = '_'

/-- The characters a document may hold. -/
def isAllowed (c : Char) : Bool :=
  let n := c.toNat
  n = 0x09 || n = 0x0A || n = 0x0D || (0x20 ≤ n && n ≤ 0x7E) || n = 0x85 ||
    (0xA0 ≤ n && n ≤ 0xFFFD) || 0x10000 ≤ n

namespace Cursor

def start (cs : List Char) : Cursor := ⟨cs, 0, 0, 0⟩

def peek (c : Cursor) : Option Char := c.rest.head?

def peekAt (c : Cursor) (n : Nat) : Option Char := c.rest[n]?

/-- A byte order mark takes no column. -/
def step (c : Cursor) : Cursor :=
  match c.rest with
  | [] => c
  | x :: r =>
    if isBreak x then ⟨r, c.index + 1, c.line + 1, 0⟩
    else ⟨r, c.index + 1, c.line, if x = '\ufeff' then c.column else c.column + 1⟩

def forward (c : Cursor) : Nat → Cursor
  | 0 => c
  | n + 1 => c.step.forward n

def takeWhile (c : Cursor) (test : Char → Bool) : List Char × Cursor :=
  let taken := c.rest.takeWhile test
  (taken, c.forward taken.length)

def skipWhile (c : Cursor) (test : Char → Bool) : Cursor := (c.takeWhile test).2

def skipSpaces (c : Cursor) : Cursor := c.skipWhile (· = ' ')

def skipSpacesTo (c : Cursor) (column : Nat) : Cursor :=
  let n := (c.rest.takeWhile (· = ' ')).length
  c.forward (min n (column - c.column))

/-- The line end that stands here. Most kinds count as a line feed. -/
def lineEnd? (c : Cursor) : Option (Char × Cursor) :=
  match c.peek with
  | some x =>
    if x = '\n' || x = '\x85' then some ('\n', c.step)
    else if isBreak x then some (x, c.step)
    else none
  | none => none

def startsWith (c : Cursor) (text : String) : Bool := text.toList.isPrefixOf c.rest

def atMark (c : Cursor) (mark : String) : Bool := c.startsWith mark && isGap (c.peekAt 3)

def atAnyMark (c : Cursor) : Bool := c.atMark "---" || c.atMark "..."

/-- The rest of a comment line: spaces, a comment, the line end. -/
def skipIgnored (c : Cursor) : Except Problem Cursor :=
  let c := c.skipSpaces
  let c := if c.peek = some '#' then c.skipWhile (!isBreak ·) else c
  if isLineEnd c.peek then
    match c.lineEnd? with
    | some (_, c) => .ok c
    | none => .ok c
  else .error .malformed

end Cursor

end Detection.Yaml
