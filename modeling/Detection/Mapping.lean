import Detection.Value

/-! # Mappings: entries in the order their keys first came -/

namespace Detection

abbrev Mapping := List (Value × Value)

namespace Mapping

/-- Whether two keys are one. Numbers of any type are one key when they are equal. -/
def sameKey : Value → Value → Bool
  | .none, .none => true
  | .text a, .text b => a = b
  | .broken a, .broken b => a = b
  | .bytes a, .bytes b => a = b
  | .time a, .time b => a = b
  | .address a, .address b => a = b
  | .real a, .real b => a = b || (a.isZero && b.isZero)
  | a, b =>
    match a.integer?, b.integer? with
    | some m, some n => m = n
    | _, _ => false

def get? (m : Mapping) (key : Value) : Option Value :=
  (m.find? fun e => sameKey e.1 key).map Prod.snd

/-- A key that is there keeps its place and takes the new value; a new key comes last. -/
def put (m : Mapping) (key value : Value) : Mapping :=
  match m with
  | [] => [(key, value)]
  | e :: es => if sameKey e.1 key then (e.1, value) :: es else e :: put es key value

def erase (m : Mapping) (key : Value) : Mapping := m.filter fun e => !sameKey e.1 key

def record (fields : List (String × Value)) : Value :=
  .dict (fields.map fun (name, v) => (.text name, v))

/-! ## Overlaying -/

mutual

/-- The mapping with another one laid over it, mappings below mappings likewise. -/
def merge (base : Mapping) : Mapping → Mapping
  | [] => base
  | (key, v) :: rest => merge (put base key (overlay (get? base key) v)) rest

def overlay (old : Option Value) : Value → Value
  | .dict entries =>
    match old with
    | some (.dict base) => .dict (merge base entries)
    | _ => .dict entries
  | v => v

end

/-! ## Paths -/

def at? (v : Value) : List String → Option Value
  | [] => some v
  | name :: rest =>
    match v with
    | .dict m => (get? m (.text name)).bind (at? · rest)
    | _ => none

end Mapping

end Detection
