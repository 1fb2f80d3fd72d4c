import Detection.Yaml.Lexeme

/-! # The tokens of a settings document

Indentation opens and closes blocks. A scalar or a collection may turn out to be a key once a colon
follows it; until then its place is kept as a candidate, at most one for each depth of flow
brackets.
-/

namespace Detection.Yaml

inductive Token where
  | version (major : Nat)
  | tagHandle (handle tagStart : String)
  | directive
  | documentStart
  | documentEnd
  | streamEnd
  | blockSequence
  | blockMapping
  | blockEnd
  | flowSequence
  | flowSequenceEnd
  | flowMapping
  | flowMappingEnd
  | blockEntry
  | flowEntry
  | key
  | value
  | alias (name : String)
  | anchor (name : String)
  | tag (handle : Option String) (suffix : String)
  | scalar (points : Points) (plain : Bool)
  deriving DecidableEq, Repr

/-- A place that becomes a key if a colon follows on the same line, no more than 1024 characters on.
In a block, what starts at the indentation must become one. -/
structure Candidate where
  depth : Nat
  token : Nat
  required : Bool
  index : Nat
  line : Nat
  column : Nat

structure Lexer where
  cursor : Cursor
  tokens : List Token
  /-- The number of open flow brackets. -/
  depth : Nat
  /-- The column of the innermost block, −1 outside all blocks. -/
  indent : Int
  outer : List Int
  keysAllowed : Bool
  candidates : List Candidate

namespace Lexer

def start (cs : List Char) : Lexer where
  cursor := if cs.head? = some '\ufeff' then (Cursor.start cs).step else .start cs
  tokens := []
  depth := 0
  indent := -1
  outer := []
  keysAllowed := true
  candidates := []

def push (l : Lexer) (t : Token) : Lexer := { l with tokens := l.tokens ++ [t] }

def pushAt (l : Lexer) (n : Nat) (t : Token) : Lexer :=
  { l with tokens := l.tokens.take n ++ t :: l.tokens.drop n }

def skip (l : Lexer) (n : Nat) : Lexer := { l with cursor := l.cursor.forward n }

/-! ## Blocks -/

def closeBlocks (l : Lexer) (column : Int) : Lexer :=
  if l.depth = 0 then go l l.outer else l
where
  go (l : Lexer) : List Int → Lexer
    | [] => l
    | around :: rest =>
      if column < l.indent then go { l.push .blockEnd with indent := around, outer := rest } rest
      else l

/-- Opens a block at a column deeper than the innermost one; tells whether it did. -/
def openBlock (l : Lexer) (column : Nat) : Lexer × Bool :=
  if l.indent < column then ({ l with indent := column, outer := l.indent :: l.outer }, true)
  else (l, false)

/-! ## Candidates -/

def isStale (l : Lexer) (k : Candidate) : Bool :=
  k.line ≠ l.cursor.line || 1024 < l.cursor.index - k.index

def dropStale (l : Lexer) : Except Problem Lexer :=
  if l.candidates.any fun k => l.isStale k && k.required then .error .malformed
  else .ok { l with candidates := l.candidates.filter fun k => !l.isStale k }

def dropCandidate (l : Lexer) : Except Problem Lexer :=
  if l.candidates.any fun k => k.depth = l.depth && k.required then .error .malformed
  else .ok { l with candidates := l.candidates.filter fun k => k.depth ≠ l.depth }

def addCandidate (l : Lexer) : Except Problem Lexer :=
  if l.keysAllowed then do
    let l ← l.dropCandidate
    let c := l.cursor
    let k : Candidate :=
      { depth := l.depth, token := l.tokens.length
        required := l.depth = 0 && l.indent = c.column
        index := c.index, line := c.line, column := c.column }
    pure { l with candidates := l.candidates ++ [k] }
  else .ok l

/-! ## Between tokens -/

/-- Spaces, comments and line ends. A line end allows keys again in a block. -/
def skipGap : Nat → Lexer → Lexer
  | 0, l => l
  | fuel + 1, l =>
    let c := l.cursor.skipSpaces
    let c := if c.peek = some '#' then c.skipWhile (!isBreak ·) else c
    match c.lineEnd? with
    | some (_, c) =>
      skipGap fuel { l with cursor := c, keysAllowed := l.keysAllowed || l.depth = 0 }
    | none => { l with cursor := c }

/-! ## Directives -/

def versionNumber (c : Cursor) : Except Problem (Nat × Cursor) :=
  let (ds, c) := c.takeWhile Char.isDigit
  if ds.isEmpty then .error .malformed else .ok (Nat.ofDigitChars 10 ds 0, c)

def directiveToken (c : Cursor) : Except Problem (Token × Cursor) := do
  let (name, c) := c.step.takeWhile isWordChar
  if name.isEmpty || !isSpaceEnd c.peek then throw .malformed
  let (t, c) ←
    match String.ofList name with
    | "YAML" =>
      let (major, c) ← versionNumber c.skipSpaces
      if c.peek ≠ some '.' then throw .malformed
      let (_, c) ← versionNumber c.step
      if !isSpaceEnd c.peek then throw .malformed
      pure (Token.version major, c)
    | "TAG" =>
      let (h, c) ← handle c.skipSpaces
      if c.peek ≠ some ' ' then throw .malformed
      let (start, c) ← uri c.skipSpaces
      if !isSpaceEnd c.peek then throw .malformed
      pure (Token.tagHandle h start, c)
    | _ => pure (Token.directive, c.skipWhile (!isBreak ·))
  let c ← c.skipIgnored
  pure (t, c)

/-! ## One token -/

/-- A mark or a directive, before which all blocks are closed. -/
def outermost (l : Lexer) : Except Problem Lexer := do
  let l ← (l.closeBlocks (-1)).dropCandidate
  pure { l with keysAllowed := false }

def finish (l : Lexer) : Except Problem Lexer := do
  let l ← l.outermost
  pure ({ l with candidates := [] }.push .streamEnd)

def directive (l : Lexer) : Except Problem Lexer := do
  let l ← l.outermost
  let (t, c) ← directiveToken l.cursor
  pure ({ l with cursor := c }.push t)

def mark (l : Lexer) (t : Token) : Except Problem Lexer := do
  let l ← l.outermost
  pure ((l.skip 3).push t)

def openFlow (l : Lexer) (t : Token) : Except Problem Lexer := do
  let l ← l.addCandidate
  pure (({ l with depth := l.depth + 1, keysAllowed := true }.skip 1).push t)

def closeFlow (l : Lexer) (t : Token) : Except Problem Lexer := do
  let l ← l.dropCandidate
  if l.depth = 0 then throw .malformed
  pure (({ l with depth := l.depth - 1, keysAllowed := false }.skip 1).push t)

def flowEntry (l : Lexer) : Except Problem Lexer := do
  let l ← { l with keysAllowed := true }.dropCandidate
  pure ((l.skip 1).push .flowEntry)

/-- Opens a block for an entry or a key that stands here, where keys are allowed. -/
def openFor (l : Lexer) (t : Token) : Except Problem Lexer :=
  if l.depth ≠ 0 then .ok l
  else if !l.keysAllowed then .error .malformed
  else
    match l.openBlock l.cursor.column with
    | (l, true) => .ok (l.push t)
    | (l, false) => .ok l

def blockEntry (l : Lexer) : Except Problem Lexer := do
  let l ← l.openFor .blockSequence
  let l ← { l with keysAllowed := true }.dropCandidate
  pure ((l.skip 1).push .blockEntry)

def explicitKey (l : Lexer) : Except Problem Lexer := do
  let l ← l.openFor .blockMapping
  let l ← { l with keysAllowed := l.depth = 0 }.dropCandidate
  pure ((l.skip 1).push .key)

/-- A colon. The candidate of this depth becomes a key, and opens a block where it is indented
deeper than the innermost one. -/
def valueMark (l : Lexer) : Except Problem Lexer := do
  let l ←
    match l.candidates.find? (·.depth = l.depth) with
    | some k =>
      let l := { l with candidates := l.candidates.filter (·.depth ≠ l.depth) }
      let l := l.pushAt k.token .key
      let l :=
        if l.depth = 0 then
          match l.openBlock k.column with
          | (l, true) => l.pushAt k.token .blockMapping
          | (l, false) => l
        else l
      pure { l with keysAllowed := false }
    | none =>
      let l ← l.openFor .blockMapping
      { l with keysAllowed := l.depth = 0 }.dropCandidate
  pure ((l.skip 1).push .value)

def atom (l : Lexer) (read : Cursor → Except Problem (Token × Cursor)) : Except Problem Lexer := do
  let l ← l.addCandidate
  let (t, c) ← read l.cursor
  pure ({ l with cursor := c, keysAllowed := false }.push t)

def blockText (l : Lexer) (folded : Bool) : Except Problem Lexer := do
  let l ← { l with keysAllowed := true }.dropCandidate
  let (ps, c) ← blockScalar folded l.indent l.cursor.step
  pure ({ l with cursor := c }.push (.scalar ps false))

def quoted (double : Bool) (c : Cursor) : Except Problem (Token × Cursor) := do
  let (ps, c) ← quotedScalar double c.step
  pure (.scalar ps false, c)

def plain (l : Lexer) : Except Problem Lexer := do
  let l ← l.addCandidate
  let ((ps, ended), c) := plainScalar (l.depth ≠ 0) l.indent l.cursor
  pure ({ l with cursor := c, keysAllowed := ended }.push (.scalar ps true))

/-- The characters no plain scalar starts with, but for the first three where no gap follows. -/
def indicators : List Char :=
  ['-', '?', ':', ',', '[', ']', '\x7b', '\x7d', '#', '&', '*', '!', '|', '>', '\'', '"', '%', '@',
    '\x60']

def startsPlain (l : Lexer) (x : Char) : Bool :=
  if isGap (some x) then false
  else if !indicators.contains x then true
  else !isGap (l.cursor.peekAt 1) && (x = '-' || (l.depth = 0 && (x = '?' || x = ':')))

def token (l : Lexer) (x : Char) : Except Problem Lexer :=
  let c := l.cursor
  let inFlow := l.depth ≠ 0
  let gapNext := isGap (c.peekAt 1)
  if x = '%' && c.column = 0 then l.directive
  else if c.column = 0 && c.atMark "---" then l.mark .documentStart
  else if c.column = 0 && c.atMark "..." then l.mark .documentEnd
  else if x = '[' then l.openFlow .flowSequence
  else if x = '\x7b' then l.openFlow .flowMapping
  else if x = ']' then l.closeFlow .flowSequenceEnd
  else if x = '\x7d' then l.closeFlow .flowMappingEnd
  else if x = ',' then l.flowEntry
  else if x = '-' && gapNext then l.blockEntry
  else if x = '?' && (inFlow || gapNext) then l.explicitKey
  else if x = ':' && (inFlow || gapNext) then l.valueMark
  else if x = '*' then
    l.atom fun c => do
      let (name, c) ← anchorName c.step
      pure (.alias name, c)
  else if x = '&' then
    l.atom fun c => do
      let (name, c) ← anchorName c.step
      pure (.anchor name, c)
  else if x = '!' then
    l.atom fun c => do
      let ((h, suffix), c) ← tag c
      pure (.tag h suffix, c)
  else if x = '|' && !inFlow then l.blockText false
  else if x = '>' && !inFlow then l.blockText true
  else if x = '\'' then l.atom (quoted false)
  else if x = '"' then l.atom (quoted true)
  else if l.startsPlain x then l.plain
  else .error .malformed

/-- All tokens up to the end. Each takes a character, so `fuel` for each suffices. -/
def run : Nat → Lexer → Except Problem (List Token)
  | 0, _ => .error .malformed
  | fuel + 1, l => do
    let l ← (l.skipGap (l.cursor.rest.length + 1)).dropStale
    let l := l.closeBlocks l.cursor.column
    match l.cursor.peek with
    | none => Lexer.tokens <$> l.finish
    | some x =>
      let l ← l.token x
      run fuel l

end Lexer

def Token.ofText (cs : List Char) : Except Problem (List Token) :=
  if cs.all isAllowed then (Lexer.start cs).run (cs.length + 1) else .error .malformed

end Detection.Yaml
