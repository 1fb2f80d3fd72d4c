import Detection.Proofs.Json.RoundTrip
import Detection.Proofs.Text.Quoted
import Detection.Rendered

/-! # Rendered values read back as documents

Texts, whole numbers, flags and sequences of such values are rendered as a document holds them, with
a tuple like a list. Inside a longer sequence a value ends where its text ends. A number of too many
digits has no text, and neither has a value in more sequences than there is room for.
-/

namespace Detection

/-! ## Texts, numbers, flags and sequences -/

namespace Value

mutual

/-- The value with a list for each tuple in it. -/
def listed : Value → Value
  | .list items | .tuple items => .list (listedAll items)
  | v => v

def listedAll : List Value → List Value
  | [] => []
  | v :: vs => listed v :: listedAll vs

end

mutual

def numbers : Value → List Int
  | .int n => [n]
  | .list items | .tuple items => numbersAll items
  | _ => []

def numbersAll : List Value → List Int
  | [] => []
  | v :: vs => numbers v ++ numbersAll vs

end

mutual

/-- How many sequences stand inside each other in a value. -/
def nesting : Value → Nat
  | .list items | .tuple items => nestingAll items + 1
  | _ => 0

def nestingAll : List Value → Nat
  | [] => 0
  | v :: vs => max (nesting v) (nestingAll vs)

end

end Value

namespace Json

/-! ## Reading a rendered value -/

end Json

end Detection
