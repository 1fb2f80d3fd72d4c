import Detection.Text.Digit
import Detection.Text.Split

/-! # What is left of printed text where no terminal shows it

Colours and cursor moves are left out. Titles for the window are left out too, but one that asks to
be set cannot be.
-/

namespace Detection.Terminal

def dropOne (c : Char) (cs : List Char) : List Char :=
  match cs with
  | x :: r => if x = c then r else cs
  | [] => []

def isAsciiLetter (c : Char) : Bool := c.isAlpha

/-- What follows a control sequence at the start of the text. -/
def afterControl? (cs : List Char) : Option (List Char) :=
  match dropOne '\x01' cs with
  | '\x1b' :: '[' :: r =>
    match r.dropWhile fun c => Text.isDecimalDigit c || c = ';' with
    | c :: r => if isAsciiLetter c then some (dropOne '\x02' r) else none
    | [] => none
  | _ => none

/-- A command for the window at the start of the text, and what follows it. -/
def command? (cs : List Char) : Option (List Char × List Char) :=
  match dropOne '\x01' cs with
  | '\x1b' :: ']' :: r =>
    match Text.cut '\x07' r with
    | (command, some r) => some (command, dropOne '\x02' r)
    | (_, none) => none
  | _ => none

/-- Leaves out control sequences. The number says how many characters still belong to one. -/
def withoutControls : Nat → List Char → List Char
  | _, [] => []
  | n + 1, _ :: r => withoutControls n r
  | 0, c :: r =>
    match afterControl? (c :: r) with
    | some rest => withoutControls (r.length - rest.length) r
    | none => c :: withoutControls 0 r

structure Placed where
  first : Nat
  last : Nat
  command : List Char

def commands : Nat → Nat → List Char → List Placed
  | _, _, [] => []
  | place, n + 1, _ :: r => commands (place + 1) n r
  | place, 0, c :: r =>
    match command? (c :: r) with
    | some (command, rest) =>
      let n := r.length - rest.length
      ⟨place, place + 1 + n, command⟩ :: commands (place + 1) n r
    | none => commands (place + 1) 0 r

def setsTitle (command : List Char) : Bool :=
  match Text.split ';' command with
  | [target, _] => [[], ['0'], ['2'], ['0', '2']].contains target
  | _ => false

/-- The text without its codes, or nothing if a title would have to be set. Commands are taken out
one after the other, each from the places it had in the whole text. -/
def plain? (s : String) : Option String :=
  let cs := s.toList
  let found := commands 0 0 cs
  if found.any (setsTitle ·.command) then none
  else
    let rest := found.foldl (fun cs p => cs.take p.first ++ cs.drop p.last) cs
    some (String.ofList (withoutControls 0 rest))

end Detection.Terminal
