import Detection.Excess

/-! # Writing a value as an ASCII document -/

namespace Detection.Json

def unitEscape (n : Nat) : List Char := '\\' :: 'u' :: Text.hexDigits 4 n

/-- A code point beyond the sixteen-bit ones is written as two surrogates. -/
def pointEscape (n : Nat) : List Char :=
  if n < 0x10000 then unitEscape n
  else unitEscape (0xD800 + (n - 0x10000) / 0x400) ++ unitEscape (0xDC00 + (n - 0x10000) % 0x400)

/-- One code point inside double quotes; printable ASCII stands for itself. -/
def escape (n : Nat) : List Char :=
  if n = 0x22 then ['\\', '"']
  else if n = 0x5C then ['\\', '\\']
  else if n = 0x0A then ['\\', 'n']
  else if n = 0x0D then ['\\', 'r']
  else if n = 0x09 then ['\\', 't']
  else if n = 0x08 then ['\\', 'b']
  else if n = 0x0C then ['\\', 'f']
  else if 0x20 ≤ n && n < 0x7F then [Char.ofNat n]
  else pointEscape n

def stringChars (points : List Nat) : List Char := '"' :: points.flatMap escape ++ ['"']

def textChars (s : String) : List Char := stringChars (s.toList.map Char.toNat)

/-- Numbers keep their shortest text; the infinities and what is no number have words. -/
def realChars : Binary64 → List Char
  | .nan => "NaN".toList
  | .infinity false => "Infinity".toList
  | .infinity true => "-Infinity".toList
  | x => x.chars

mutual

/-- One space follows each comma and colon. Values with no form in a document count as nothing. -/
def write : Value → List Char
  | .none => "null".toList
  | .flag b => (if b then "true" else "false").toList
  | .int n => (toString n).toList
  | .real x => realChars x
  | .text s => textChars s
  | .broken ps => stringChars ps
  | .list items | .tuple items => '[' :: Text.join [',', ' '] (writeAll items) ++ [']']
  | .dict entries => '\x7b' :: Text.join [',', ' '] (writeEntries entries) ++ ['\x7d']
  | _ => "null".toList

def writeAll : List Value → List (List Char)
  | [] => []
  | v :: vs => write v :: writeAll vs

def writeEntries : List (Value × Value) → List (List Char)
  | [] => []
  | (k, v) :: es => (write k ++ [':', ' '] ++ write v) :: writeEntries es

end

def excess? (room : Option Nat) (v : Value) : Option Excess :=
  v.excess? ⟨1, 1, " while encoding a JSON object"⟩ room

end Detection.Json
