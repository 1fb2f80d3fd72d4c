/-! # UTF-8: writing text as bytes, and reading bytes that may not be text -/

namespace Detection.Utf8

def encode (s : String) : List UInt8 :=
  s.toList.flatMap String.utf8EncodeChar

/-! ## Reading -/

inductive Flaw where
  /-- No character starts with this byte. -/
  | start
  /-- The byte after the sequence read so far does not continue it. -/
  | continuation
  /-- The bytes end inside a character. -/
  | ending
  deriving DecidableEq, Repr

def Flaw.reason : Flaw → String
  | .start => "invalid start byte"
  | .continuation => "invalid continuation byte"
  | .ending => "unexpected end of data"

/-- What reading meets: a character, or `size` bytes that belong to none. -/
inductive Piece where
  | char (c : Char)
  | bad (flaw : Flaw) (size : Nat)
  deriving DecidableEq, Repr

def isContinuation (b : UInt8) : Bool := 0x80 ≤ b && b ≤ 0xBF

/-- The bytes a character may go on with after its first one. The narrower ranges keep out overlong
forms, surrogates and everything past U+10FFFF. -/
def isSecond (first b : UInt8) : Bool :=
  isContinuation b &&
    (first ≠ 0xE0 || 0xA0 ≤ b) && (first ≠ 0xED || b < 0xA0) &&
    (first ≠ 0xF0 || 0x90 ≤ b) && (first ≠ 0xF4 || b < 0x90)

/-- The number of bytes in a character that starts with this byte, 0 if none does. -/
def width (first : UInt8) : Nat :=
  if first < 0x80 then 1
  else if first < 0xC2 then 0
  else if first < 0xE0 then 2
  else if first < 0xF0 then 3
  else if first < 0xF5 then 4
  else 0

def extend (bits : Nat) (b : UInt8) : Nat := bits * 64 + (b.toNat - 0x80)

/-- Cuts bytes into characters and the longest flawed stretches between them. A stretch ends before
the first byte that could not continue it, so that byte is read afresh. -/
def pieces : List UInt8 → List Piece
  | [] => []
  | a :: r =>
    match width a with
    | 1 => .char (Char.ofNat a.toNat) :: pieces r
    | 2 =>
      match r with
      | [] => [.bad .ending 1]
      | b :: s =>
        if isContinuation b then .char (Char.ofNat (extend (a.toNat - 0xC0) b)) :: pieces s
        else .bad .continuation 1 :: pieces (b :: s)
    | 3 =>
      match r with
      | [] => [.bad .ending 1]
      | b :: s =>
        if isSecond a b then
          match s with
          | [] => [.bad .ending 2]
          | c :: t =>
            if isContinuation c then
              .char (Char.ofNat (extend (extend (a.toNat - 0xE0) b) c)) :: pieces t
            else .bad .continuation 2 :: pieces (c :: t)
        else .bad .continuation 1 :: pieces (b :: s)
    | 4 =>
      match r with
      | [] => [.bad .ending 1]
      | b :: s =>
        if isSecond a b then
          match s with
          | [] => [.bad .ending 2]
          | c :: t =>
            if isContinuation c then
              match t with
              | [] => [.bad .ending 3]
              | d :: u =>
                if isContinuation d then
                  .char (Char.ofNat (extend (extend (extend (a.toNat - 0xF0) b) c) d)) :: pieces u
                else .bad .continuation 3 :: pieces (d :: u)
            else .bad .continuation 2 :: pieces (c :: t)
        else .bad .continuation 1 :: pieces (b :: s)
    | _ => .bad .start 1 :: pieces r

/-- Bytes that are no text: the first flaw, where it starts, and the bytes it covers. -/
structure Failure where
  flaw : Flaw
  position : Nat
  bytes : List UInt8
  deriving DecidableEq, Repr

def charsFrom (bytes : List UInt8) (position : Nat) : List Piece → Except Failure (List Char)
  | [] => .ok []
  | .char c :: ps => (c :: ·) <$> charsFrom bytes (position + (String.utf8EncodeChar c).length) ps
  | .bad flaw size :: _ => .error ⟨flaw, position, (bytes.drop position).take size⟩

def decode (bytes : List UInt8) : Except Failure String :=
  String.ofList <$> charsFrom bytes 0 (pieces bytes)

/-- The text with a replacement character for each flawed stretch. -/
def decodeLossy (bytes : List UInt8) : String :=
  String.ofList <| (pieces bytes).map fun
    | .char c => c
    | .bad _ _ => '\ufffd'

end Detection.Utf8
