import Detection.Text.Blank

/-! # Quoted text, and text that needs no quotes -/

namespace Detection.Text

/-- `n` in hexadecimal, lower case, with at least `width` digits. -/
def hexDigits (width n : Nat) : List Char :=
  let ds := Nat.toDigits 16 n
  List.replicate (width - ds.length) '0' ++ ds

/-! ## Quoting -/

/-- One character inside double quotes. Everything from U+0020 on stands for itself, DEL included,
except the quote and the backslash. -/
def escape (c : Char) : List Char :=
  match c with
  | '"' => ['\\', '"']
  | '\\' => ['\\', '\\']
  | '\n' => ['\\', 'n']
  | '\r' => ['\\', 'r']
  | '\t' => ['\\', 't']
  | '\x08' => ['\\', 'b']
  | '\x0c' => ['\\', 'f']
  | c => if c.toNat < 0x20 then '\\' :: 'u' :: hexDigits 4 c.toNat else [c]

def quoteChars (cs : List Char) : List Char := '"' :: cs.flatMap escape ++ ['"']

def quote (s : String) : String := String.ofList (quoteChars s.toList)

/-! ## Bare tokens -/

/-- A character that would end a bare token or the pair it stands in. -/
def breaksToken (c : Char) : Bool := isBlank c || c = '"' || c = '=' || isControl c

/-- Leaves text as it is where it can stand as one token, and quotes it otherwise. -/
def bare (s : String) : String :=
  if s.toList.isEmpty || s.toList.any breaksToken then quote s else s

theorem bare_cases (s : String) :
    bare s = quote s ∨ bare s = s ∧ s ≠ "" ∧ ∀ c ∈ s.toList, breaksToken c = false := by
  unfold bare
  split
  · exact .inl rfl
  · rename_i hsafe
    rw [Bool.not_eq_true, Bool.or_eq_false_iff, List.any_eq_false] at hsafe
    refine .inr ⟨rfl, ?_, fun c hc => Bool.not_eq_true _ ▸ hsafe.2 c hc⟩
    rintro rfl
    exact absurd hsafe.1 (by decide)

end Detection.Text
