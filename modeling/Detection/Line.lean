import Detection.Event
import Detection.Syslog.Header

/-! # The lines of an event: display form and syslog form -/

namespace Detection

def pairsText (pairs : List Pair) : String :=
  Text.joinTexts " " (pairs.map fun (name, text) => name ++ "=" ++ text)

namespace Event

def pairsText (e : Event) : Except RenderError String := Detection.pairsText <$> e.pairs

def displayLine (e : Event) : Except RenderError String := do
  pure (e.kind.name ++ " \x7b " ++ (← e.pairsText) ++ " \x7d")

/-- The escape of a character that would end a line or be lost on the way. -/
def lineEscape (c : Char) : List Char :=
  if c = '\n' then ['\\', 'n']
  else if c = '\r' then ['\\', 'r']
  else if c = '\x00' then ['\\', 'u', '0', '0', '0', '0']
  else [c]

def oneLine (s : String) : String := String.ofList (s.toList.flatMap lineEscape)

def syslogLine (e : Event) (h : Syslog.Header) : Except RenderError String := do
  pure (oneLine (h.text ++ " " ++ (← e.pairsText)))

end Event

/-! ## Colour -/

def cyan : String := "\x1b[36m"

def red : String := "\x1b[31m"

def plainStyle : String := "\x1b[0m"

/-- Colours as many characters at the start of a line as the kind's name has. -/
def Event.colourise (e : Event) (line : String) : String :=
  let name := e.kind.name
  cyan ++ name ++ plainStyle ++ String.ofList (line.toList.drop name.length)

end Detection
