import Detection.Text.Literal
import Detection.Text.Split
import Detection.Text.Utf8

/-! # Files below a working directory, and reading them as text -/

namespace Detection

/-- A path with its empty and dot parts dropped. -/
structure Path where
  /-- Empty for a relative path. -/
  root : String
  parts : List String
  deriving DecidableEq, Repr

namespace Path

/-- Exactly two slashes in front are kept; more count as one. -/
def rootOf (cs : List Char) : String :=
  match cs with
  | '/' :: '/' :: '/' :: _ => "/"
  | '/' :: '/' :: _ => "//"
  | '/' :: _ => "/"
  | _ => ""

def ofText (text : String) : Path where
  root := rootOf text.toList
  parts := ((Text.split '/' text.toList).map String.ofList).filter fun p => p ≠ "" && p ≠ "."

def text (p : Path) : String :=
  if p.root = "" && p.parts.isEmpty then "." else p.root ++ Text.joinTexts "/" p.parts

def name (p : Path) : String := p.parts.getLast?.getD ""

def append (p : Path) (name : String) : Path := { p with parts := p.parts ++ [name] }

end Path

inductive Entry where
  | file (bytes : List UInt8)
  | directory
  deriving DecidableEq, Repr

/-- Entries by the names on the way to them. Directories on the way need no entry of their own. -/
structure Files where
  entries : List (List String × Entry)

inductive Found where
  | file (place : List String) (bytes : List UInt8)
  | directory (place : List String)
  | free (place : List String)
  | missing
  | notDirectory

namespace Files

/-- The name in front of the names of a path that does not start at the working directory. -/
def rootName : String := "/"

def base (p : Path) : List String := if p.root = "" then [] else [rootName]

def isAbove (names : List String) : Bool := names.all (· = "..")

def next (here : List String) (part : String) : List String :=
  if part ≠ ".." then here ++ [part]
  else if here = [rootName] then here
  else if isAbove here then here ++ [part]
  else here.dropLast

/-- The places a path leads past, and the one it leads to. -/
def places (here : List String) : List String → List (List String)
  | [] => []
  | part :: rest => next here part :: places (next here part) rest

def entry? (f : Files) (names : List String) : Option Entry :=
  if isAbove names || names = [rootName] then some .directory
  else
    match f.entries.lookup names with
    | some e => some e
    | none => if f.entries.any fun e => names.isPrefixOf e.1 then some .directory else none

def walk (f : Files) (here : List String) : List String → Found
  | [] => .directory here
  | part :: rest =>
    let place := next here part
    match f.entry? place with
    | some .directory => walk f place rest
    | some (.file bytes) => if rest.isEmpty then .file place bytes else .notDirectory
    | none => if rest.isEmpty then .free place else .missing

def find (f : Files) (p : Path) : Found :=
  if p.parts.any (·.contains '\x00') then .missing
  else f.walk (base p) p.parts

def isThere (f : Files) (p : Path) : Bool :=
  match f.find p with
  | .file _ _ | .directory _ => true
  | _ => false

def write (f : Files) (names : List String) (bytes : List UInt8) : Files :=
  if f.entries.any (·.1 = names) then
    ⟨f.entries.map fun e => if e.1 = names then (names, .file bytes) else e⟩
  else ⟨f.entries ++ [(names, .file bytes)]⟩

def bytesAt (f : Files) (names : List String) : List UInt8 :=
  match f.entries.lookup names with
  | some (.file bytes) => bytes
  | _ => []

def extend (f : Files) (names : List String) (bytes : List UInt8) : Files :=
  f.write names (f.bytesAt names ++ bytes)

end Files

/-! ## Opening a file to write -/

inductive WriteError where
  | missing (path : String)
  | directory (path : String)
  | notDirectory (path : String)
  | occupied (path : String)
  | nul
  deriving DecidableEq, Repr

def WriteError.message : WriteError → String
  | .missing path => "[Errno 2] No such file or directory: " ++ Text.literal path
  | .directory path => "[Errno 21] Is a directory: " ++ Text.literal path
  | .notDirectory path => "[Errno 20] Not a directory: " ++ Text.literal path
  | .occupied path => "[Errno 17] File exists: " ++ Text.literal path
  | .nul => "embedded null byte"

/-- Where the file of a path stands or may be made. A last part that is empty or a dot asks for a
directory. -/
def Files.placeToWrite (f : Files) (path : String) : Except WriteError (List String) :=
  let last := (Text.split '/' path.toList).getLast?.getD []
  if path = "" then .error (.missing path)
  else if path.contains '\x00' then .error .nul
  else
    match f.find (Path.ofText path) with
    | .file place _ =>
      if last.isEmpty || last = ['.'] then .error (.notDirectory path) else .ok place
    | .directory _ => .error (.directory path)
    | .free place =>
      if last.isEmpty then .error (.directory path)
      else if last = ['.'] then .error (.missing path)
      else .ok place
    | .missing => .error (.missing path)
    | .notDirectory => .error (.notDirectory path)

def Files.makeDirectories (f : Files) (p : Path) : Except WriteError Files :=
  match f.find p with
  | .directory _ => .ok f
  | .file _ _ => .error (.occupied p.text)
  | .notDirectory => .error (.notDirectory p.text)
  | .free place => .ok ⟨f.entries ++ [(place, .directory)]⟩
  | .missing =>
    if p.parts.any (·.contains '\x00') then .error .nul
    else .ok ⟨f.entries ++ [(p.parts.foldl Files.next (Files.base p), .directory)]⟩

/-! ## Reading text -/

def unifyLines : List Char → List Char
  | [] => []
  | '\r' :: '\n' :: r => '\n' :: unifyLines r
  | '\r' :: r => '\n' :: unifyLines r
  | c :: r => c :: unifyLines r

inductive ReadError where
  | missing (path : String)
  | directory (path : String)
  | notDirectory (path : String)
  | notText (cause : Utf8.Failure)
  deriving DecidableEq, Repr

def failureText (f : Utf8.Failure) : String :=
  let place :=
    match f.bytes with
    | [b] =>
      "byte 0x" ++ String.ofList (Text.hexDigits 2 b.toNat) ++
        " in position " ++ toString f.position
    | bs =>
      "bytes in position " ++ toString f.position ++ "-" ++ toString (f.position + bs.length - 1)
  "'utf-8' codec can't decode " ++ place ++ ": " ++ f.flaw.reason

def ReadError.message : ReadError → String
  | .missing path => "[Errno 2] No such file or directory: " ++ Text.literal path
  | .directory path => "[Errno 21] Is a directory: " ++ Text.literal path
  | .notDirectory path => "[Errno 20] Not a directory: " ++ Text.literal path
  | .notText cause => failureText cause

def Files.readText (f : Files) (p : Path) : Except ReadError (List Char) :=
  match f.find p with
  | .file _ bytes =>
    match Utf8.decode bytes with
    | .ok s => .ok (unifyLines s.toList)
    | .error cause => .error (.notText cause)
  | .directory _ => .error (.directory p.text)
  | .free _ | .missing => .error (.missing p.text)
  | .notDirectory => .error (.notDirectory p.text)

end Detection
