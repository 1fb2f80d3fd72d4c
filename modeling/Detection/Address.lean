import Detection.Text.Split
import Detection.Text.Quoted

/-! # Internet addresses: both versions, their text and its reading -/

namespace Detection

/-- An address of version 4, or one of version 6 with the zone it is scoped to. -/
inductive Address where
  | v4 (octets : Vector UInt8 4)
  | v6 (groups : Vector UInt16 8) (zone : Option String)
  deriving DecidableEq

namespace Address

def unspecified : Address := .v4 #v[0, 0, 0, 0]

/-! ## Reading -/

/-- One to three ASCII digits without a leading zero, at most 255. -/
def octet? (cs : List Char) : Option UInt8 :=
  if cs.isEmpty || !cs.all Char.isDigit || 3 < cs.length then none
  else if cs ≠ ['0'] && cs.head? = some '0' then none
  else
    let n := Nat.ofDigitChars 10 cs 0
    if n ≤ 255 then some n.toUInt8 else none

def octets? (cs : List Char) : Option (Vector UInt8 4) :=
  match (Text.split '.' cs).mapM octet? with
  | some [a, b, c, d] => some #v[a, b, c, d]
  | _ => none

def hexValue? (c : Char) : Option Nat :=
  let n := c.toNat
  if '0' ≤ c && c ≤ '9' then some (n - '0'.toNat)
  else if 'a' ≤ c && c ≤ 'f' then some (n - 'a'.toNat + 10)
  else if 'A' ≤ c && c ≤ 'F' then some (n - 'A'.toNat + 10)
  else none

def group? (cs : List Char) : Option UInt16 :=
  if cs.isEmpty || 4 < cs.length then none
  else
    (cs.mapM hexValue?).map fun ds => (ds.foldl (fun n d => n * 16 + d) 0).toUInt16

/-- A double colon at an end of the text leaves an empty part there, which stands for nothing. -/
def dropEmptyEnd (parts : List (List Char)) : List (List Char) :=
  if parts = [[]] then [] else parts

/-- The groups the parts between colons stand for. One inner part may be empty and stands for all
the groups that are missing, at least one. -/
def groupsOfParts? (parts : List (List Char)) : Option (List UInt16) :=
  let inner := parts.tail.dropLast
  match (inner.filter List.isEmpty).length with
  | 0 => if parts.length = 8 then parts.mapM group? else none
  | 1 => do
    let gap := 1 + inner.findIdx List.isEmpty
    let high ← (dropEmptyEnd (parts.take gap)).mapM group?
    let low ← (dropEmptyEnd (parts.drop (gap + 1))).mapM group?
    let known := high.length + low.length
    if known < 8 then some (high ++ List.replicate (8 - known) 0 ++ low) else none
  | _ => none

def pairGroup (a b : UInt8) : UInt16 := a.toUInt16 * 256 + b.toUInt16

/-- The last part may be an address of version 4, which stands for two groups. -/
def expandTail (parts : List (List Char)) : Option (List (List Char)) :=
  match parts.getLast? with
  | some last =>
    if last.contains '.' then
      (octets? last).map fun o =>
        parts.dropLast ++ [Text.hexDigits 1 (pairGroup o[0] o[1]).toNat,
          Text.hexDigits 1 (pairGroup o[2] o[3]).toNat]
    else some parts
  | none => some parts

def groups? (cs : List Char) : Option (Vector UInt16 8) := do
  let parts := Text.split ':' cs
  if parts.length < 3 then none
  else
    match ← groupsOfParts? (← expandTail parts) with
    | [a, b, c, d, e, f, g, h] => some #v[a, b, c, d, e, f, g, h]
    | _ => none

def v6? (cs : List Char) : Option Address :=
  match Text.cut '%' cs with
  | (body, none) => (groups? body).map (.v6 · none)
  | (body, some zone) =>
    if zone.isEmpty || zone.contains '%' then none
    else (groups? body).map (.v6 · (some (String.ofList zone)))

def parse? (text : String) : Option Address :=
  let cs := text.toList
  if cs.contains '/' then none
  else
    match octets? cs with
    | some o => some (.v4 o)
    | none => v6? cs

/-! ## Text -/

def octetChars (b : UInt8) : List Char := Nat.toDigits 10 b.toNat

def groupChars (g : UInt16) : List Char := Nat.toDigits 16 g.toNat

/-- Where the longest run of zero groups starts and how long it is; of equal runs the first. -/
def longestZeros (gs : List UInt16) : Nat × Nat :=
  (List.range gs.length).foldl (fun best i =>
    let n := ((gs.drop i).takeWhile (· = 0)).length
    if best.2 < n then (i, n) else best) (0, 0)

/-- Lower-case groups without leading zeros; two or more zero groups shrink to a double colon. -/
def groupsChars (gs : List UInt16) : List Char :=
  let (start, count) := longestZeros gs
  let joined (part : List UInt16) := Text.join [':'] (part.map groupChars)
  if count < 2 then joined gs
  else joined (gs.take start) ++ [':', ':'] ++ joined (gs.drop (start + count))

def chars : Address → List Char
  | .v4 o => Text.join ['.'] (o.toList.map octetChars)
  | .v6 g none => groupsChars g.toList
  | .v6 g (some zone) => groupsChars g.toList ++ '%' :: zone.toList

def text (a : Address) : String := String.ofList a.chars

def version : Address → Nat
  | .v4 _ => 4
  | .v6 _ _ => 6

end Address

end Detection
