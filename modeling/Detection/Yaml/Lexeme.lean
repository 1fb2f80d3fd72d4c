import Detection.Text.Utf8
import Detection.Yaml.Cursor

/-! # The longer lexemes of a settings document: names, tags and scalars -/

namespace Detection.Yaml

abbrev Points := List Nat

def points (cs : List Char) : Points := cs.map Char.toNat

def hexDigit? (c : Char) : Option Nat :=
  if '0' ≤ c && c ≤ '9' then some (c.toNat - '0'.toNat)
  else if 'a' ≤ c && c ≤ 'f' then some (c.toNat - 'a'.toNat + 10)
  else if 'A' ≤ c && c ≤ 'F' then some (c.toNat - 'A'.toNat + 10)
  else none

def hexNumber (count : Nat) (c : Cursor) : Except Problem (Nat × Cursor) :=
  let cs := c.rest.take count
  if cs.length < count then .error .malformed
  else
    match cs.mapM hexDigit? with
    | some ds => .ok (ds.foldl (fun n d => n * 16 + d) 0, c.forward count)
    | none => .error .malformed

/-! ## Names and tags -/

def anchorName (c : Cursor) : Except Problem (String × Cursor) :=
  let (name, c) := c.takeWhile isWordChar
  let ends := isGap c.peek || c.peek.any ['?', ':', ',', ']', '}', '%', '@', '\x60'].contains
  if name.isEmpty || !ends then .error .malformed else .ok (String.ofList name, c)

/-- Bytes written as a per cent sign and two digits each, and the text they make. -/
def uriEscapes : Nat → Cursor → Except Problem (List UInt8 × Cursor)
  | 0, c => .ok ([], c)
  | fuel + 1, c =>
    if c.peek = some '%' then do
      let (n, c) ← hexNumber 2 c.step
      let (bs, c) ← uriEscapes fuel c
      pure (n.toUInt8 :: bs, c)
    else .ok ([], c)

def isUriChar (c : Char) : Bool :=
  isWordChar c || "-;/?:@&=+$,_.!~*'()[]".toList.contains c

def uriChars : Nat → Cursor → Except Problem (List Char × Cursor)
  | 0, c => .ok ([], c)
  | fuel + 1, c => do
    let (plain, c) := c.takeWhile isUriChar
    if c.peek = some '%' then
      let (bs, c) ← uriEscapes c.rest.length c
      match Utf8.decode bs with
      | .error _ => throw .malformed
      | .ok s =>
        let (more, c) ← uriChars fuel c
        pure (plain ++ s.toList ++ more, c)
    else pure (plain, c)

def uri (c : Cursor) : Except Problem (String × Cursor) := do
  let (cs, c) ← uriChars (c.rest.length + 1) c
  if cs.isEmpty then throw .malformed else pure (String.ofList cs, c)

/-- A handle: an exclamation mark, or a name between two. -/
def handle (c : Cursor) : Except Problem (String × Cursor) :=
  if c.peek ≠ some '!' then .error .malformed
  else if c.peekAt 1 = some ' ' then .ok ("!", c.step)
  else
    let (name, after) := c.step.takeWhile isWordChar
    if after.peek = some '!' then .ok (String.ofList ('!' :: name ++ ['!']), after.step)
    else .error .malformed

def tag (c : Cursor) : Except Problem ((Option String × String) × Cursor) := do
  let next := c.peekAt 1
  let (found, c) ←
    if next = some '<' then
      let (suffix, c) ← uri (c.forward 2)
      if c.peek = some '>' then pure ((none, suffix), c.step) else throw .malformed
    else if isGap next then pure ((none, "!"), c.step)
    else
      let word := c.step.rest.takeWhile fun x => !(isBreak x || x = ' ')
      if word.contains '!' then
        let (h, c) ← handle c
        let (suffix, c) ← uri c
        pure ((some h, suffix), c)
      else
        let (suffix, c) ← uri c.step
        pure ((some "!", suffix), c)
  if isSpaceEnd c.peek then pure (found, c) else throw .malformed

/-! ## Block scalars -/

/-- What happens to the line ends behind a block scalar. -/
inductive Chomping where
  | clip
  | strip
  | keep
  deriving DecidableEq, Repr

def chomping? (c : Option Char) : Option Chomping :=
  if c = some '+' then some .keep else if c = some '-' then some .strip else none

def increment? (c : Cursor) : Except Problem (Option Nat × Cursor) :=
  match c.peek with
  | some x =>
    if x = '0' then .error .malformed
    else if x.isDigit then .ok (some (x.toNat - '0'.toNat), c.step)
    else .ok (none, c)
  | none => .ok (none, c)

def blockIndicators (c : Cursor) : Except Problem ((Chomping × Option Nat) × Cursor) := do
  let (found, c) ←
    match chomping? c.peek with
    | some chomping =>
      let (increment, c) ← increment? c.step
      pure ((chomping, increment), c)
    | none =>
      let (increment, c) ← increment? c
      match increment, chomping? c.peek with
      | some n, some chomping => pure ((chomping, some n), c.step)
      | increment, _ => pure ((Chomping.clip, increment), c)
  if isSpaceEnd c.peek then pure (found, c) else throw .malformed

/-- Line ends, each behind spaces, and the widest column the spaces reach. -/
def blockIndentation : Nat → Nat → Cursor → (List Char × Nat) × Cursor
  | 0, widest, c => (([], widest), c)
  | fuel + 1, widest, c =>
    let c := c.skipSpaces
    let widest := max widest c.column
    match c.lineEnd? with
    | some (b, c) =>
      let ((bs, widest), c) := blockIndentation fuel widest c
      ((b :: bs, widest), c)
    | none => (([], widest), c)

/-- Line ends, each behind spaces up to the indentation. -/
def blockBreaks (indent : Nat) : Nat → Cursor → List Char × Cursor
  | 0, c => ([], c)
  | fuel + 1, c =>
    let c := c.skipSpacesTo indent
    match c.lineEnd? with
    | some (b, c) =>
      let (bs, c) := blockBreaks indent fuel c
      (b :: bs, c)
    | none => ([], c)

def isBlankChar (c : Option Char) : Bool := c = some ' ' || c = some '\t'

/-- The lines of a block scalar. The line end and the empty lines behind the last one are given
apart. -/
def blockLines (folded : Bool) (indent : Nat) :
    Nat → List Char → Cursor → (List Char × List Char × List Char) × Cursor
  | 0, breaks, c => (([], [], breaks), c)
  | fuel + 1, breaks, c =>
    let leading := !isBlankChar c.peek
    let (line, c) := c.takeWhile (!isBreak ·)
    let (lineEnd, c) := match c.lineEnd? with
      | some (b, c) => ([b], c)
      | none => ([], c)
    let (next, c) := blockBreaks indent (c.rest.length + 1) c
    if c.column = indent && c.peek.isSome then
      let between :=
        if folded && lineEnd = ['\n'] && leading && !isBlankChar c.peek then
          if next.isEmpty then [' '] else []
        else lineEnd
      let ((text, lastEnd, tail), c) := blockLines folded indent fuel next c
      ((breaks ++ line ++ between ++ text, lastEnd, tail), c)
    else ((breaks ++ line, lineEnd, next), c)

def blockScalar (folded : Bool) (outer : Int) (c : Cursor) : Except Problem (Points × Cursor) := do
  let ((chomping, increment), c) ← blockIndicators c
  let c ← c.skipIgnored
  let least := (max 1 (outer + 1)).toNat
  let fuel := c.rest.length + 1
  let (indent, breaks, c) := match increment with
    | none =>
      let ((breaks, widest), c) := blockIndentation fuel 0 c
      (max least widest, breaks, c)
    | some n =>
      let indent := least + n - 1
      let (breaks, c) := blockBreaks indent fuel c
      (indent, breaks, c)
  let ((text, lastEnd, tail), c) :=
    if c.column = indent && c.peek.isSome then blockLines folded indent fuel breaks c
    else (([], [], breaks), c)
  let kept := match chomping with
    | .strip => []
    | .clip => lastEnd
    | .keep => lastEnd ++ tail
  pure (points (text ++ kept), c)

/-! ## Quoted scalars -/

def simpleEscapes : List (Char × Nat) :=
  [('0', 0x00), ('a', 0x07), ('b', 0x08), ('t', 0x09), ('\t', 0x09), ('n', 0x0A), ('v', 0x0B),
    ('f', 0x0C), ('r', 0x0D), ('e', 0x1B), (' ', 0x20), ('"', 0x22), ('\\', 0x5C), ('/', 0x2F),
    ('N', 0x85), ('_', 0xA0), ('L', 0x2028), ('P', 0x2029)]

/-- Escapes by number and the digits each takes. -/
def numberEscapes : List (Char × Nat) := [('x', 2), ('u', 4), ('U', 8)]

/-- Empty lines inside a quoted scalar. A document mark may not stand there. -/
def quotedBreaks : Nat → Cursor → Except Problem (List Char × Cursor)
  | 0, c => .ok ([], c)
  | fuel + 1, c =>
    if c.atAnyMark then .error .malformed
    else
      let c := c.skipWhile fun x => x = ' ' || x = '\t'
      match c.lineEnd? with
      | some (b, c) => do
        let (bs, c) ← quotedBreaks fuel c
        pure (b :: bs, c)
      | none => .ok ([], c)

/-- A line end folds to a space, unless more of them follow or it is of a kind that is kept. -/
def fold (lineEnd : Char) (breaks : List Char) : List Char :=
  (if lineEnd ≠ '\n' then [lineEnd] else if breaks.isEmpty then [' '] else []) ++ breaks

def quotedSpaces (c : Cursor) : Except Problem (List Char × Cursor) := do
  let (blanks, c) := c.takeWhile fun x => x = ' ' || x = '\t'
  match c.peek, c.lineEnd? with
  | none, _ => throw .malformed
  | some _, some (b, c) =>
    let (bs, c) ← quotedBreaks (c.rest.length + 1) c
    pure (fold b bs, c)
  | some _, none => pure (blanks, c)

def escapedPoints (c : Cursor) : Except Problem (Points × Cursor) := do
  let some x := c.peek | throw .malformed
  match simpleEscapes.lookup x, numberEscapes.lookup x with
  | some n, _ => pure ([n], c.step)
  | none, some count =>
    let (n, c) ← hexNumber count c.step
    if n < 0x110000 then pure ([n], c)
    else throw (if n < 0x80000000 then .codePoint else .overflow)
  | none, none =>
    match c.lineEnd? with
    | some (_, c) =>
      let (bs, c) ← quotedBreaks (c.rest.length + 1) c
      pure (points bs, c)
    | none => throw .malformed

/-- A quoted scalar up to its closing quote, from behind the opening one. -/
def quotedPoints (double : Bool) : Nat → Cursor → Except Problem (Points × Cursor)
  | 0, _ => .error .malformed
  | fuel + 1, c => do
    let prepend (ps : Points) (c : Cursor) : Except Problem (Points × Cursor) := do
      let (more, c) ← quotedPoints double fuel c
      pure (ps ++ more, c)
    match c.peek with
    | none => throw .malformed
    | some x =>
      if x = '\'' && !double then
        if c.peekAt 1 = some '\'' then prepend [0x27] (c.forward 2) else pure ([], c.step)
      else if x = '"' && double then pure ([], c.step)
      else if x = '\\' && double then
        let (ps, c) ← escapedPoints c.step
        prepend ps c
      else if x = ' ' || x = '\t' || isBreak x then
        let (cs, c) ← quotedSpaces c
        prepend (points cs) c
      else prepend [x.toNat] c.step

def quotedScalar (double : Bool) (c : Cursor) : Except Problem (Points × Cursor) :=
  quotedPoints double (c.rest.length + 1) c

/-! ## Plain scalars -/

def isFlowMark (c : Char) : Bool := [',', '[', ']', '\x7b', '\x7d'].contains c

/-- How many characters a plain scalar goes on for on this line without white space. -/
def plainRun (inFlow : Bool) : List Char → Nat
  | [] => 0
  | x :: r =>
    let ends := isGap (some x) ||
      (x = ':' && (isGap r.head? || (inFlow && r.head?.any isFlowMark))) ||
      (inFlow && (isFlowMark x || x = '?'))
    if ends then 0 else plainRun inFlow r + 1

/-- Empty and indented lines inside a plain scalar; nothing if a document mark stands there. -/
def plainBreaks : Nat → Cursor → Option (List Char) × Cursor
  | 0, c => (some [], c)
  | fuel + 1, c =>
    if c.atAnyMark then (none, c)
    else
      let c := c.skipSpaces
      match c.lineEnd? with
      | some (b, c) =>
        let (bs, c) := plainBreaks fuel c
        (bs.map (b :: ·), c)
      | none => (some [], c)

/-- White space inside a plain scalar, and whether a line ended in it. -/
def plainSpaces (c : Cursor) : (List Char × Bool) × Cursor :=
  let (blanks, c) := c.takeWhile (· = ' ')
  match c.lineEnd? with
  | some (b, c) =>
    match plainBreaks (c.rest.length + 1) c with
    | (some bs, c) => ((fold b bs, true), c)
    | (none, c) => (([], true), c)
  | none => ((blanks, false), c)

/-- The runs of a plain scalar with the white space between them, and whether a line ended behind
the last one. -/
def plainRuns (inFlow : Bool) (indent : Int) :
    Nat → List Char → Bool → Cursor → (List Char × Bool) × Cursor
  | 0, _, ended, c => (([], ended), c)
  | fuel + 1, spaces, ended, c =>
    if c.peek = some '#' then (([], ended), c)
    else
      let n := plainRun inFlow c.rest
      if n = 0 then (([], ended), c)
      else
        let run := c.rest.take n
        let ((next, ended), c) := plainSpaces (c.forward n)
        if next.isEmpty || c.peek = some '#' || (!inFlow && (c.column : Int) < indent) then
          ((spaces ++ run, ended), c)
        else
          let ((more, ended), c) := plainRuns inFlow indent fuel next ended c
          ((spaces ++ run ++ more, ended), c)

def plainScalar (inFlow : Bool) (outer : Int) (c : Cursor) : (Points × Bool) × Cursor :=
  let ((cs, ended), c) := plainRuns inFlow (outer + 1) (c.rest.length + 1) [] false c
  ((points cs, ended), c)

end Detection.Yaml
