import Detection.CommandLine.Switch
import Detection.Text.Split

/-! # How to call the program: the usage lines and the help -/

namespace Detection.CommandLine

def programName : String := "event-render"

def width : Nat := 78

def spaces (n : Nat) : String := String.ofList (List.replicate n ' ')

def padded (n : Nat) (s : String) : String := s ++ spaces (n - s.length)

/-- Puts as many words on each line as fit beside a margin. A word that is too long has its own
line. -/
def fill (room : Nat) (line : String) : List String → List String
  | [] => [line]
  | w :: ws =>
    if line.length + 1 + w.length ≤ room then fill room (line ++ " " ++ w) ws
    else line :: fill room w ws

def filled (room : Nat) : List String → List String
  | [] => []
  | w :: ws => fill room w ws

/-! ## Usage -/

def positionalName : String := "events_file"

/-- A switch in the usage lines, under its first name or, for one that can be negated, all names. -/
def switchUsage (s : Switch) : String :=
  let shown :=
    match s with
    | .color => " | ".intercalate s.names
    | s => s.names.headD ""
  "[" ++ " ".intercalate (shown :: s.placeholder?.toList) ++ "]"

def usage : String :=
  let lead := "usage: " ++ programName ++ " "
  let room := width - lead.length
  let lines := filled room (Switch.all.map switchUsage) ++ ["[" ++ positionalName ++ "]"]
  lead ++ ("\n" ++ spaces lead.length).intercalate lines ++ "\n"

/-! ## Help -/

def margin : Nat := 24

def helpLines (entry explanation : String) : List String :=
  let lines := filled (width - margin) ((Text.split ' ' explanation.toList).map String.ofList)
  let entry := "  " ++ entry
  let indented (lines : List String) := lines.map (spaces margin ++ ·)
  if entry.length + 2 ≤ margin then
    match lines with
    | [] => [entry]
    | line :: rest => (padded margin entry ++ line) :: indented rest
  else entry :: indented lines

def switchEntry (s : Switch) : String :=
  ", ".intercalate (s.names.map fun n => " ".intercalate (n :: s.placeholder?.toList))

def description : String :=
  "eventrender - Render network detection events as display or syslog lines"

def examples : List (String × String) :=
  [("events.json", "Display form"),
    ("events.json -f syslog", "RFC5424 lines"),
    ("events.json -f both -o out.log", "Both forms, appended to a file"),
    ("events.json -f syslog --facility auth --hostname sensor-01", ""),
    ("--list-kinds", "Show the event taxonomy")]

def exampleLine (e : String × String) : String :=
  "  " ++ programName ++ " " ++ (if e.2 = "" then e.1 else padded 36 e.1 ++ "# " ++ e.2)

def help : String :=
  let lines :=
    [description, "", "positional arguments:"] ++
      helpLines positionalName "JSON file holding one event object or a list of them" ++
      ["", "options:"] ++
      (Switch.all.flatMap fun s => helpLines (switchEntry s) s.explanation) ++
      ["", "Examples:"] ++ examples.map exampleLine ++ [spaces 8]
  usage ++ "\n" ++ "\n".intercalate lines ++ "\n"

end Detection.CommandLine
