import Detection.Excess
import Detection.Yaml.Token

/-! # The tree a settings document spells out

An alias stands for a copy of what it names. Handles of tags are replaced by what they stand for; a
node without a tag, or with a lone exclamation mark, has none here.
-/

namespace Detection.Yaml

/-- How a scalar without a tag finds its type: from its text when it is plain. -/
inductive Style where
  | plain
  | text
  deriving DecidableEq, Repr

inductive Node where
  | scalar (tag : Option String) (style : Style) (points : Points)
  | sequence (tag : Option String) (items : List Node)
  | mapping (tag : Option String) (entries : List (Node × Node))

namespace Node

def empty : Node := .scalar none .plain []

/-- The tokens still to read, what anchors name (nothing yet while a node is being read), and how
many collections the place is in. -/
structure Source where
  tokens : List Token
  anchors : List (String × Option Node)
  depth : Nat

inductive Place where
  | flow
  | block
  /-- A key or a value in a block mapping, which may be a sequence without an indentation. -/
  | entry
  deriving DecidableEq, Repr

abbrev Handles := List (String × String)

def standardTags : String := "tag:yaml.org,2002:"

def defaultHandles : Handles := [("!", "!"), ("!!", standardTags)]

/-! ## Tags and anchors -/

structure Properties where
  anchor : Option String
  tag : Option (Option String × String)

def properties (ts : List Token) : Properties × List Token :=
  match ts with
  | .anchor a :: .tag h s :: r => (⟨some a, some (h, s)⟩, r)
  | .tag h s :: .anchor a :: r => (⟨some a, some (h, s)⟩, r)
  | .anchor a :: r => (⟨some a, none⟩, r)
  | .tag h s :: r => (⟨none, some (h, s)⟩, r)
  | ts => (⟨none, none⟩, ts)

def resolveTag (handles : Handles) (tag : Option (Option String × String)) :
    Except Problem (Option String) :=
  match tag with
  | none => .ok none
  | some (none, suffix) => .ok (some suffix)
  | some (some h, suffix) =>
    match handles.lookup h with
    | some start => .ok (some (start ++ suffix))
    | none => .error .malformed

/-- A lone exclamation mark is no tag of a collection. -/
def collectionTag (tag : Option String) : Option String := if tag = some "!" then none else tag

/-- A lone exclamation mark lets a scalar find its type from its text, quoted or not. -/
def ofScalar (tag : Option String) (points : Points) (isPlain : Bool) : Node :=
  if tag = some "!" then .scalar none .plain points
  else .scalar tag (if isPlain && tag.isNone then .plain else .text) points

/-- An anchor names one node of a document. -/
def openAnchor (anchor : Option String) (s : Source) : Except Problem Source :=
  match anchor with
  | none => .ok s
  | some a =>
    if s.anchors.any (·.1 = a) then .error .malformed
    else .ok { s with anchors := (a, none) :: s.anchors }

def closeAnchor (anchor : Option String) (n : Node) (s : Source) : Source :=
  match anchor with
  | none => s
  | some a => { s with anchors := (a, some n) :: s.anchors.filter (·.1 ≠ a) }

/-- What an alias names, unless it stands inside of it. -/
def ofAlias (name : String) (s : Source) : Except Problem Node :=
  match s.anchors.lookup name with
  | some (some n) => .ok n
  | _ => .error .malformed

/-- Each collection takes two calls inside those of the one around it. -/
def maxDepth : Nat := Excess.usualRoom / 2

def descend (s : Source) (rest : List Token) : Except Problem Source :=
  if s.depth < maxDepth then .ok { s with tokens := rest, depth := s.depth + 1 } else .error .depth

/-! ## Nodes -/

def endsEntry (t : Option Token) : Bool :=
  t = some .key || t = some .value || t = some .blockEnd

def endsBlockItem (t : Option Token) : Bool := t = some .blockEntry || t = some .blockEnd

def endsFlowItem (close : Token) (t : Option Token) : Bool := t = some .flowEntry || t = some close

mutual

/-- The node that starts here. Every call takes a token or leaves a shorter task, so two units of
`fuel` for each token suffice. -/
def read (handles : Handles) : Nat → Place → Source → Except Problem (Node × Source)
  | 0, _, _ => .error .malformed
  | fuel + 1, place, s =>
    match s.tokens with
    | .alias name :: rest => do
      let n ← ofAlias name s
      pure (n, { s with tokens := rest })
    | ts => do
      let (p, ts) := properties ts
      let tag ← resolveTag handles p.tag
      let s ← openAnchor p.anchor { s with tokens := ts }
      let (n, after) ←
        match ts with
        | .blockEntry :: _ =>
          if place = .entry then
            let (items, s) ← looseItems handles fuel (← descend s ts)
            pure (Node.sequence (collectionTag tag) items, s)
          else if p.anchor.isSome || p.tag.isSome then pure (ofScalar tag [] true, s)
          else throw .malformed
        | .scalar points isPlain :: rest =>
          pure (ofScalar tag points isPlain, { s with tokens := rest })
        | .flowSequence :: rest =>
          let (items, s) ← flowItems handles fuel true (← descend s rest)
          pure (Node.sequence (collectionTag tag) items, s)
        | .flowMapping :: rest =>
          let (entries, s) ← flowEntries handles fuel true (← descend s rest)
          pure (Node.mapping (collectionTag tag) entries, s)
        | .blockSequence :: rest =>
          if place = .flow then
            if p.anchor.isSome || p.tag.isSome then pure (ofScalar tag [] true, s)
            else throw .malformed
          else
            let (items, s) ← blockItems handles fuel (← descend s rest)
            pure (Node.sequence (collectionTag tag) items, s)
        | .blockMapping :: rest =>
          if place = .flow then
            if p.anchor.isSome || p.tag.isSome then pure (ofScalar tag [] true, s)
            else throw .malformed
          else
            let (entries, s) ← blockEntries handles fuel (← descend s rest)
            pure (Node.mapping (collectionTag tag) entries, s)
        | _ =>
          if p.anchor.isSome || p.tag.isSome then pure (ofScalar tag [] true, s)
          else throw .malformed
      pure (n, closeAnchor p.anchor n { after with depth := s.depth })

def readUnless (handles : Handles) : Nat → Bool → Place → Source → Except Problem (Node × Source)
  | 0, _, _, _ => .error .malformed
  | fuel + 1, leftOut, place, s =>
    if leftOut then .ok (empty, s) else read handles fuel place s

def blockItems (handles : Handles) : Nat → Source → Except Problem (List Node × Source)
  | 0, _ => .error .malformed
  | fuel + 1, s =>
    match s.tokens with
    | .blockEntry :: rest => do
      let s := { s with tokens := rest }
      let (n, s) ← readUnless handles fuel (endsBlockItem rest.head?) .block s
      let (ns, s) ← blockItems handles fuel s
      pure (n :: ns, s)
    | .blockEnd :: rest => .ok ([], { s with tokens := rest })
    | _ => .error .malformed

/-- The items of a sequence without an indentation of its own. -/
def looseItems (handles : Handles) : Nat → Source → Except Problem (List Node × Source)
  | 0, _ => .error .malformed
  | fuel + 1, s =>
    match s.tokens with
    | .blockEntry :: rest => do
      let leftOut := rest.head? = some .blockEntry || endsEntry rest.head?
      let (n, s) ← readUnless handles fuel leftOut .block { s with tokens := rest }
      let (ns, s) ← looseItems handles fuel s
      pure (n :: ns, s)
    | _ => .ok ([], s)

def blockValue (handles : Handles) : Nat → Source → Except Problem (Node × Source)
  | 0, _ => .error .malformed
  | fuel + 1, s =>
    match s.tokens with
    | .value :: rest =>
      readUnless handles fuel (endsEntry rest.head?) .entry { s with tokens := rest }
    | _ => .ok (empty, s)

def blockEntries (handles : Handles) : Nat → Source → Except Problem (List (Node × Node) × Source)
  | 0, _ => .error .malformed
  | fuel + 1, s =>
    match s.tokens with
    | .key :: rest => do
      let (k, s) ← readUnless handles fuel (endsEntry rest.head?) .entry { s with tokens := rest }
      let (v, s) ← blockValue handles fuel s
      let (es, s) ← blockEntries handles fuel s
      pure ((k, v) :: es, s)
    | .blockEnd :: rest => .ok ([], { s with tokens := rest })
    | _ => .error .malformed

def flowValue (handles : Handles) (close : Token) : Nat → Source → Except Problem (Node × Source)
  | 0, _ => .error .malformed
  | fuel + 1, s =>
    match s.tokens with
    | .value :: rest =>
      readUnless handles fuel (endsFlowItem close rest.head?) .flow { s with tokens := rest }
    | _ => .ok (empty, s)

/-- A key in flow brackets, from behind its mark, and its value. -/
def flowEntry (handles : Handles) (close : Token) :
    Nat → Source → Except Problem ((Node × Node) × Source)
  | 0, _ => .error .malformed
  | fuel + 1, s => do
    let next := s.tokens.head?
    let leftOut := next = some .value || endsFlowItem close next
    let (k, s) ← readUnless handles fuel leftOut .flow s
    let (v, s) ← flowValue handles close fuel s
    pure ((k, v), s)

/-- The items of a flow sequence up to its end. A key makes a mapping of one entry. -/
def flowItems (handles : Handles) : Nat → Bool → Source → Except Problem (List Node × Source)
  | 0, _, _ => .error .malformed
  | fuel + 1, first, s => do
    let ts ←
      match s.tokens, first with
      | .flowSequenceEnd :: _, _ => pure s.tokens
      | ts, true => pure ts
      | .flowEntry :: rest, false => pure rest
      | _, false => throw .malformed
    match ts with
    | .flowSequenceEnd :: rest => pure ([], { s with tokens := rest })
    | .key :: rest =>
      let (e, after) ← flowEntry handles .flowSequenceEnd fuel (← descend s rest)
      let (ns, s) ← flowItems handles fuel false { after with depth := s.depth }
      pure (.mapping none [e] :: ns, s)
    | ts =>
      let (n, s) ← read handles fuel .flow { s with tokens := ts }
      let (ns, s) ← flowItems handles fuel false s
      pure (n :: ns, s)

/-- The entries of a flow mapping up to its end. A node that is no key has the empty value. -/
def flowEntries (handles : Handles) :
    Nat → Bool → Source → Except Problem (List (Node × Node) × Source)
  | 0, _, _ => .error .malformed
  | fuel + 1, first, s => do
    let ts ←
      match s.tokens, first with
      | .flowMappingEnd :: _, _ => pure s.tokens
      | ts, true => pure ts
      | .flowEntry :: rest, false => pure rest
      | _, false => throw .malformed
    match ts with
    | .flowMappingEnd :: rest => pure ([], { s with tokens := rest })
    | .key :: rest =>
      let (e, s) ← flowEntry handles .flowMappingEnd fuel { s with tokens := rest }
      let (es, s) ← flowEntries handles fuel false s
      pure (e :: es, s)
    | ts =>
      let (n, s) ← read handles fuel .flow { s with tokens := ts }
      let (es, s) ← flowEntries handles fuel false s
      pure ((n, empty) :: es, s)

end

/-! ## Documents -/

def isDirective : Token → Bool
  | .version _ | .tagHandle _ _ | .directive => true
  | _ => false

/-- The handles that directives set, each once, beside the default ones. -/
def handlesOf : Bool → Handles → List Token → Except Problem (Handles × List Token)
  | versioned, set, .version major :: rest =>
    if versioned || major ≠ 1 then .error .malformed else handlesOf true set rest
  | versioned, set, .tagHandle h start :: rest =>
    if set.any (·.1 = h) then .error .malformed else handlesOf versioned (set ++ [(h, start)]) rest
  | versioned, set, .directive :: rest => handlesOf versioned set rest
  | _, set, ts => .ok (set ++ defaultHandles, ts)

def isDocumentEnd (t : Token) : Bool := t = .documentEnd

def marked (ts : List Token) : Except Problem (Node × List Token) := do
  let (handles, ts) ← handlesOf false [] ts
  match ts with
  | .documentStart :: rest =>
    match rest with
    | [] => throw .malformed
    | t :: _ =>
      if isDirective t || t = .documentStart || t = .documentEnd || t = .streamEnd then
        pure (empty, rest)
      else
        let (n, s) ← read handles (2 * rest.length + 2) .block ⟨rest, [], 0⟩
        pure (n, s.tokens)
  | _ => throw .malformed

def ofTokens (ts : List Token) : Except Problem (Option Node) := do
  let isMarked := ts.head?.any fun t => isDirective t || t = .documentStart
  if ts.head? = some .streamEnd then pure none
  else
    let (n, rest) ←
      if isMarked then marked ts
      else do
        let (n, s) ← read defaultHandles (2 * ts.length + 2) .block ⟨ts, [], 0⟩
        pure (n, s.tokens)
    match rest.dropWhile isDocumentEnd with
    | [.streamEnd] => pure (some n)
    | _ => throw .malformed

end Node

end Detection.Yaml
