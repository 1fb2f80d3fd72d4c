import Detection.Excess
import Detection.Text.Utf8

/-! # The text of a value in a rendered pair

Display line and syslog line take their texts from here, so a value reads the same in both.
-/

namespace Detection

def absentMark : String := "-"

def bracketed (texts : List String) : String := "[" ++ Text.joinTexts "," texts ++ "]"

theorem toList_bracketed (texts : List String) :
    (bracketed texts).toList = '[' :: Text.join [','] (texts.map String.toList) ++ [']'] := by
  simp [bracketed, Text.joinTexts]

def memberText (m : Member) : String := Text.bare (m.title?.getD m.name)

namespace Value

mutual

/-- Text and bytes are quoted, sequences bracketed; every other value has a form of its own. -/
def rendered : Value → String
  | .none => absentMark
  | .flag b => if b then "true" else "false"
  | .int n => toString n
  | .real x => x.text
  | .text s => Text.quote s
  | .broken ps => Text.quote (brokenText ps)
  | .bytes bs | .buffer bs => Text.quote (Utf8.decodeLossy bs)
  | .address a => a.text
  | .time t => t.anchored.text
  | .member m => memberText m
  | .list items | .tuple items => bracketed (renderedAll items)
  | .dict es => Text.bare (Value.dict es).literal
  | .score p s => Text.bare (Value.score p s).display
  | .command c k r => Text.bare (Value.command c k r).display
  | .endpoint a p c => Text.bare (Value.endpoint a p c).literal
  | .multiPort a p c => Text.bare (Value.multiPort a p c).literal
  | .group a p c => Text.bare (Value.group a p c).literal

def renderedAll : List Value → List String
  | [] => []
  | v :: vs => rendered v :: renderedAll vs

end

mutual

def renderedExcess? (room : Option Nat) : Value → Option Excess
  | .list items | .tuple items =>
    Excess.inside room 4 "" fun room => renderedExcessAmong? room items
  | v => v.displayExcess? room

def renderedExcessAmong? (room : Option Nat) : List Value → Option Excess
  | [] => Option.none
  | v :: vs => (renderedExcess? room v).or (renderedExcessAmong? room vs)

end

def format (room : Option Nat) (v : Value) : Except Excess String :=
  match v.renderedExcess? room with
  | Option.none => .ok v.rendered
  | some cause => .error cause

theorem renderedAll_eq_map (vs : List Value) : renderedAll vs = vs.map rendered := by
  induction vs with
  | nil => rfl
  | cons v vs ih => rw [renderedAll, ih, List.map_cons]

end Value

end Detection
