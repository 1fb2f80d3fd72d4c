import Detection.Yaml.Scalar

/-! # The value of a settings document -/

namespace Detection.Yaml

namespace Node

def scalarType (tag : Option String) (style : Style) (points : Points) :
    Except Problem ScalarType :=
  match tag, style with
  | none, .plain => .ok (.ofPlain (points.map Char.ofNat))
  | none, .text => .ok .text
  | some tag, _ =>
    match ScalarType.ofTag? tag with
    | some type => .ok type
    | none => .error .malformed

def isMergeKey (n : Node) : Bool :=
  match n with
  | .scalar tag style points =>
    match scalarType tag style points with
    | .ok type => type = .merge
    | .error _ => false
  | _ => false

def isTagged (name : String) (tag : Option String) : Bool :=
  tag.all (· = standardTags ++ name)

def isKey : Value → Bool
  | .list _ | .dict _ => false
  | _ => true

def gather (entries : Mapping) : Mapping := entries.foldl (fun m e => m.put e.1 e.2) []

mutual

def value : Node → Except Problem Value
  | .scalar tag style points => do
    let type ← scalarType tag style points
    scalarValue type points
  | .sequence tag items =>
    if isTagged "seq" tag then do
      let vs ← values items
      pure (.list vs)
    else .error .malformed
  | .mapping tag entries =>
    if isTagged "map" tag then do
      let (merged, own) ← entryValues entries
      pure (.dict (gather (merged ++ own)))
    else .error .malformed

def values : List Node → Except Problem (List Value)
  | [] => .ok []
  | n :: ns => do
    let v ← value n
    let vs ← values ns
    pure (v :: vs)

/-- The entries that merge keys bring, and those of the mapping itself, which come after them and
prevail. -/
def entryValues : List (Node × Node) → Except Problem (Mapping × Mapping)
  | [] => .ok ([], [])
  | (k, v) :: rest =>
    if isMergeKey k then do
      let brought ←
        match v with
        | .mapping _ entries => do
          let (merged, own) ← entryValues entries
          pure (merged ++ own)
        | .sequence _ items => mergedValues items
        | .scalar _ _ _ => throw .malformed
      let (merged, own) ← entryValues rest
      pure (brought ++ merged, own)
    else do
      let key ← keyValue k
      if !isKey key then throw .malformed
      let x ← value v
      let (merged, own) ← entryValues rest
      pure (merged, (key, x) :: own)

/-- A key. The sign for a default value is plain text there. -/
def keyValue : Node → Except Problem Value
  | .scalar tag style points => do
    let type ← scalarType tag style points
    scalarValue (if type = .default then .text else type) points
  | .sequence _ _ | .mapping _ _ => .error .malformed

/-- The entries of mappings to be merged. Those of the first mapping prevail, so they come last. -/
def mergedValues : List Node → Except Problem Mapping
  | [] => .ok []
  | n :: ns => do
    let first ←
      match n with
      | .mapping _ entries => do
        let (merged, own) ← entryValues entries
        pure (merged ++ own)
      | _ => throw .malformed
    let others ← mergedValues ns
    pure (others ++ first)

end

end Node

/-- The value of the one document in a text; nothing if there is no document. -/
def read (cs : List Char) : Except Problem Value := do
  let tokens ← Token.ofText cs
  match ← Node.ofTokens tokens with
  | some n => n.value
  | none => pure .none

end Detection.Yaml
