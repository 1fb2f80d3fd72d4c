import Detection.Excess
import Detection.Text.Utf8

/-! # Country codes: two bytes of text, or the code for an unknown country -/

namespace Detection.Country

def unknown : String := "XX"

inductive Fallback where
  | notTwoBytes (raw : Value)
  | notText (bytes : List UInt8)

def Fallback.note : Fallback → String
  | .notTwoBytes raw => "Country code " ++ raw.literal ++ " is not 2 bytes, using " ++ unknown
  | .notText bytes =>
    "Country code " ++ Text.bytesLiteral bytes ++ " is not UTF-8, using " ++ unknown

def read (raw : Value) : Except Fallback String :=
  match raw with
  | .bytes bs | .buffer bs =>
    if bs.length = 2 then
      match Utf8.decode bs with
      | .ok code => .ok code
      | .error _ => .error (.notText bs)
    else .error (.notTwoBytes raw)
  | _ => .error (.notTwoBytes raw)

/-- The code a raw one stands for: what is not two bytes of text is an unknown country. -/
def decode (raw : Value) : String :=
  match read raw with
  | .ok code => code
  | .error _ => unknown

def notes (raw : Value) : List String :=
  match read raw with
  | .ok _ => []
  | .error cause => [cause.note]

def decodeAll (raws : List Value) : List String := raws.map decode

def Fallback.excess? (room : Option Nat) : Fallback → Option Excess
  | .notTwoBytes raw => raw.literalExcess? room
  | .notText _ => none

/-- Decodes a raw code, once the note on a bad one is written. -/
def attempt (room : Option Nat) (raw : Value) : Except Excess String :=
  match read raw with
  | .ok code => .ok code
  | .error cause =>
    match cause.excess? room with
    | none => .ok unknown
    | some excess => .error excess

def attemptAll (room : Option Nat) (raws : List Value) : Except Excess (List String) :=
  raws.mapM (attempt room)

/-- Text of two bytes as these bytes; anything else as the unknown country. -/
def encode (code : Value) : List UInt8 :=
  match code with
  | .text s =>
    let bs := Utf8.encode s
    if bs.length = 2 then bs else Utf8.encode unknown
  | _ => Utf8.encode unknown

end Detection.Country
