import Detection.CommandLine.Switch
import Detection.Text.Digit
import Detection.Text.Literal
import Detection.Text.Split

/-! # What a command line asks for -/

namespace Detection.CommandLine

structure Request where
  eventsFile : Option String := none
  form : Form := .display
  output : Option String := none
  config : Option String := none
  hostname : Option String := none
  appName : Option String := none
  facility : Option Facility := none
  color : Option Bool := none
  listKinds : Bool := false
  verbose : Bool := false
  quiet : Bool := false

inductive Refusal where
  | noValue (s : Switch)
  | badChoice (s : Switch) (given : String)
  | uselessValue (s : Switch) (given : String)
  | ambiguous (given : String) (names : List String)
  | unrecognized (words : List String)
  | noEventsFile
  deriving DecidableEq, Repr

namespace Refusal

def about (s : Switch) (text : String) : String := "argument " ++ s.title ++ ": " ++ text

def choicesText (s : Switch) : String :=
  ", ".intercalate ((s.choices?.getD []).map Text.literal)

def message : Refusal → String
  | .noValue s => about s "expected one argument"
  | .badChoice s given =>
    about s ("invalid choice: " ++ Text.literal given ++ " (choose from " ++ choicesText s ++ ")")
  | .uselessValue s given => about s ("ignored explicit argument " ++ Text.literal given)
  | .ambiguous given names =>
    "ambiguous option: " ++ given ++ " could match " ++ ", ".intercalate names
  | .unrecognized words => "unrecognized arguments: " ++ " ".intercalate words
  | .noEventsFile => "an events file is required unless --list-kinds is given"

end Refusal

/-! ## Words -/

inductive Rest where
  | nothing
  | assigned (text : String)
  | joined (text : String)
  deriving DecidableEq, Repr

inductive Word where
  | plain (text : String)
  /-- The mark behind which every word is plain. -/
  | mark
  | switch (given : Named) (rest : Rest)
  | unknown (text : String)
  deriving DecidableEq, Repr

/-- A negative number. One line feed may follow it. -/
def isNegativeNumber (cs : List Char) : Bool :=
  match cs with
  | '-' :: r =>
    let r := if r.getLast? = some '\n' then r.dropLast else r
    match Text.cut '.' r with
    | (whole, none) => !whole.isEmpty && whole.all Text.isDecimalDigit
    | (whole, some places) =>
      whole.all Text.isDecimalDigit && !places.isEmpty && places.all Text.isDecimalDigit
  | _ => false

/-- The readings of a word that is no name as a name cut short or a letter with text behind it. -/
def readings (before : List Char) (after : Option (List Char)) (cs : List Char) : List Word :=
  match cs with
  | '-' :: '-' :: _ =>
    (allNamed.filter fun n => before.isPrefixOf n.name.toList).map fun n =>
      .switch n (match after with
        | none => .nothing
        | some text => .assigned (String.ofList text))
  | '-' :: c :: r =>
    (named? (String.ofList ['-', c])).toList.map fun n => .switch n (.joined (String.ofList r))
  | _ => []

def Word.ofText (text : String) : Except Refusal Word :=
  match text.toList with
  | '-' :: c :: r =>
    let cs := '-' :: c :: r
    match named? text with
    | some n => .ok (.switch n .nothing)
    | none =>
      let (before, after) := Text.cut '=' cs
      match after, named? (String.ofList before) with
      | some value, some n => .ok (.switch n (.assigned (String.ofList value)))
      | _, _ =>
        match readings before after cs with
        | [w] => .ok w
        | [] =>
          if isNegativeNumber cs || cs.contains ' ' then .ok (.plain text) else .ok (.unknown text)
        | ws =>
          .error (.ambiguous text (ws.filterMap fun
            | .switch n _ => some n.name
            | _ => none))
  | _ => .ok (.plain text)

def words : List String → Except Refusal (List Word)
  | [] => .ok []
  | w :: ws =>
    if w = "--" then .ok (.mark :: ws.map .plain)
    else do
      let first ← Word.ofText w
      let others ← words ws
      pure (first :: others)

/-! ## Switches -/

inductive Wish where
  | help
  | set (change : Request → Request)

def wish (n : Named) (value : String) : Except Refusal Wish :=
  match n.switch with
  | .help => .ok .help
  | .form =>
    match Form.ofName? value with
    | some f => .ok (.set fun r => { r with form := f })
    | none => .error (.badChoice .form value)
  | .facility =>
    match facilityOfWord? value with
    | some f => .ok (.set fun r => { r with facility := some f })
    | none => .error (.badChoice .facility value)
  | .output => .ok (.set fun r => { r with output := some value })
  | .config => .ok (.set fun r => { r with config := some value })
  | .hostname => .ok (.set fun r => { r with hostname := some value })
  | .appName => .ok (.set fun r => { r with appName := some value })
  | .color => .ok (.set fun r => { r with color := some (n.name = "--color") })
  | .listKinds => .ok (.set fun r => { r with listKinds := true })
  | .verbose => .ok (.set fun r => { r with verbose := true })
  | .quiet => .ok (.set fun r => { r with quiet := true })

structure Bundle where
  uses : List (Named × String)
  /-- The last switch, if its value is the next word. -/
  open? : Option Named
  /-- What is left of the word when no switch goes by the next letter. -/
  left : Option String

def Bundle.before (n : Named) (b : Bundle) : Bundle := { b with uses := (n, "") :: b.uses }

def lastUse (n : Named) : Bundle :=
  if n.switch.takesValue then ⟨[], some n, none⟩ else ⟨[(n, "")], none, none⟩

/-- A switch with text right behind it: its value, or letters of more switches. -/
def joinedUses (n : Named) : List Char → Except Refusal Bundle
  | [] => .ok (lastUse n)
  | c :: r =>
    if n.switch.takesValue then .ok ⟨[(n, String.ofList (c :: r))], none, none⟩
    else if c = '-' then .error (.uselessValue n.switch (String.ofList (c :: r)))
    else
      match named? (String.ofList ['-', c]) with
      | none => .ok ⟨[(n, "")], none, some (String.ofList ('-' :: c :: r))⟩
      | some next =>
        match r with
        | '=' :: value =>
          if next.switch.takesValue then
            .ok ⟨[(n, ""), (next, String.ofList value)], none, none⟩
          else .error (.uselessValue next.switch (String.ofList value))
        | r => (·.before n) <$> joinedUses next r

def bundle (n : Named) : Rest → Except Refusal Bundle
  | .nothing => .ok (lastUse n)
  | .assigned value =>
    if n.switch.takesValue then .ok ⟨[(n, value)], none, none⟩
    else .error (.uselessValue n.switch value)
  | .joined text => joinedUses n text.toList

/-! ## Reading a command line -/

inductive Outcome where
  | help
  | refused (cause : Refusal)
  | request (r : Request)

/-- Grants wishes one after the other, up to a call for help. -/
def grant (r : Request) : List (Named × String) → Except Outcome Request
  | [] => .ok r
  | (n, value) :: rest =>
    match wish n value with
    | .error cause => .error (.refused cause)
    | .ok .help => .error .help
    | .ok (.set change) => grant (change r) rest

/-- Reads words from left to right. The first plain one names the events file, and a mark beside it
goes with it. Words without a meaning are collected. -/
def read (r : Request) (named : Bool) (left : List String) : List Word → Except Outcome Request
  | [] => if left.isEmpty then .ok r else .error (.refused (.unrecognized left))
  | .unknown text :: ws => read r named (left ++ [text]) ws
  | .mark :: .plain text :: ws =>
    if named then read r named (left ++ ["--", text]) ws
    else read { r with eventsFile := some text } true left ws
  | .mark :: ws => read r named (if named then left ++ ["--"] else left) ws
  | .plain text :: .mark :: ws =>
    if named then read r named (left ++ [text, "--"]) ws
    else read { r with eventsFile := some text } true left ws
  | .plain text :: ws =>
    if named then read r named (left ++ [text]) ws
    else read { r with eventsFile := some text } true left ws
  | .switch n rest :: ws =>
    match bundle n rest with
    | .error cause => .error (.refused cause)
    | .ok b =>
      let left := left ++ b.left.toList
      match b.open?, ws with
      | none, ws => do read (← grant r b.uses) named left ws
      | some last, .plain value :: ws => do
        read (← grant r (b.uses ++ [(last, value)])) named left ws
      | some last, _ => .error (.refused (.noValue last.switch))

def Outcome.ofArguments (args : List String) : Outcome :=
  match words args with
  | .error cause => .refused cause
  | .ok ws =>
    match read {} false [] ws with
    | .ok r => .request r
    | .error o => o

end Detection.CommandLine
