import Detection.Text.Printable
import Detection.Text.Quoted

/-! # Literals: text and bytes as they are shown in messages -/

namespace Detection.Text

/-- Single quotes, or double quotes where the content holds a single quote and no double one. -/
def literalQuote (hasSingle hasDouble : Bool) : Char :=
  if hasSingle && !hasDouble then '"' else '\''

def numericEscape (n : Nat) : List Char :=
  if n ≤ 0xFF then '\\' :: 'x' :: hexDigits 2 n
  else if n ≤ 0xFFFF then '\\' :: 'u' :: hexDigits 4 n
  else '\\' :: 'U' :: hexDigits 8 n

def literalChar (q c : Char) : List Char :=
  match c with
  | '\\' => ['\\', '\\']
  | '\n' => ['\\', 'n']
  | '\r' => ['\\', 'r']
  | '\t' => ['\\', 't']
  | c => if c = q then ['\\', c] else if isPrintable c then [c] else numericEscape c.toNat

def literal (s : String) : String :=
  let cs := s.toList
  let q := literalQuote (cs.contains '\'') (cs.contains '"')
  String.ofList (q :: cs.flatMap (literalChar q) ++ [q])

/-- The same for code points of which some are lone surrogates. -/
def brokenLiteral (points : List Nat) : String :=
  let q := literalQuote (points.contains 0x27) (points.contains 0x22)
  let shown (n : Nat) : List Char :=
    if 0xD800 ≤ n && n ≤ 0xDFFF then numericEscape n else literalChar q (Char.ofNat n)
  String.ofList (q :: points.flatMap shown ++ [q])

/-! ## Bytes -/

def literalByte (q : Char) (b : UInt8) : List Char :=
  let c := Char.ofNat b.toNat
  if c = q || c = '\\' then ['\\', c]
  else if c = '\t' then ['\\', 't']
  else if c = '\n' then ['\\', 'n']
  else if c = '\r' then ['\\', 'r']
  else if 0x20 ≤ b && b < 0x7F then [c]
  else numericEscape b.toNat

def bytesLiteral (bs : List UInt8) : String :=
  let q := literalQuote (bs.contains 0x27) (bs.contains 0x22)
  String.ofList ('b' :: q :: bs.flatMap (literalByte q) ++ [q])

end Detection.Text
