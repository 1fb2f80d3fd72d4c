import Detection.Value

/-! # Values that no text can be made of

A whole number has a text up to a number of digits. The parts of a value are shown by calls that
stand inside each other, and there may be no room for as many as it takes.
-/

namespace Detection

inductive Excess where
  | digits
  /-- No room for one more call, and what the call was for. -/
  | calls (doing : String)
  deriving DecidableEq, Repr

namespace Excess

def maxDigits : Nat := 4300

/-- The room there is when nothing else is under way, more or less. -/
def usualRoom : Nat := 990

def message : Excess → String
  | .digits =>
    "Exceeds the limit (" ++ toString maxDigits ++ " digits) for integer string conversion; " ++
      "use sys.set_int_max_str_digits() to increase the limit"
  | .calls doing => "maximum recursion depth exceeded" ++ doing

def isLong (n : Int) : Bool := maxDigits < (toString n.natAbs).length

def isShort (n : Int) : Bool := (toString n).length ≤ maxDigits

/-- What goes wrong when some calls are made and the rest is done inside them. Without a limit there
is always room. -/
def inside (room : Option Nat) (calls : Nat) (doing : String) (rest : Option Nat → Option Excess) :
    Option Excess :=
  if room.any (· < calls) then some (.calls doing) else rest (room.map (· - calls))

/-- The calls it takes to get into a sequence or a mapping, and into a value of a fixed shape. -/
structure Toll where
  sequence : Nat
  shape : Nat
  doing : String

end Excess

namespace Value

open Excess (inside)

mutual

/-- The first thing that goes wrong on the way through a value. -/
def excess? (t : Excess.Toll) (room : Option Nat) : Value → Option Excess
  | .int n => if Excess.isLong n then some .digits else Option.none
  | .list items | .tuple items => inside room t.sequence t.doing fun room => excessAmong? t room items
  | .dict entries => inside room t.sequence t.doing fun room => excessInside? t room entries
  | .score p s =>
    inside room t.shape t.doing fun room => (excess? t room p).or (excess? t room s)
  | .command c k r =>
    inside room t.shape t.doing fun room =>
      (excess? t room c).or ((excess? t room k).or (excess? t room r))
  | .endpoint a p c =>
    inside room t.shape t.doing fun room =>
      (excess? t room a).or ((excess? t room p).or (excess? t room c))
  | .multiPort a p c =>
    inside room t.shape t.doing fun room =>
      (excess? t room a).or
        ((inside room t.sequence t.doing fun room => excessAmong? t room p).or (excess? t room c))
  | .group a p c =>
    inside room t.shape t.doing fun room =>
      (inside room t.sequence t.doing fun room => excessAmong? t room a).or
        ((inside room t.sequence t.doing fun room => excessAmong? t room p).or
          (inside room t.sequence t.doing fun room => excessAmong? t room c))
  | _ => Option.none

def excessAmong? (t : Excess.Toll) (room : Option Nat) : List Value → Option Excess
  | [] => Option.none
  | v :: vs => (excess? t room v).or (excessAmong? t room vs)

def excessInside? (t : Excess.Toll) (room : Option Nat) : List (Value × Value) → Option Excess
  | [] => Option.none
  | (k, v) :: es => (excess? t room k).or ((excess? t room v).or (excessInside? t room es))

end

def literalExcess? (room : Option Nat) (v : Value) : Option Excess :=
  v.excess? ⟨1, 3, " while getting the repr of an object"⟩ room

def displayExcess? (room : Option Nat) : Value → Option Excess
  | .score p s =>
    inside room 2 "" fun room => (displayExcess? room p).or (s.literalExcess? room)
  | .command c k r =>
    inside room 2 "" fun room =>
      (displayExcess? room c).or ((displayExcess? room k).or (displayExcess? room r))
  | v => v.literalExcess? room

def displayed (room : Option Nat) (v : Value) : Except Excess String :=
  match v.displayExcess? room with
  | Option.none => .ok v.display
  | some cause => .error cause

end Value

end Detection
