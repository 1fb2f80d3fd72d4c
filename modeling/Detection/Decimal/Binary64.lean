import Detection.Decimal.Power

/-! # Binary floating point with 53 significant bits

A finite number is its sign and its rank among the non-negative ones, so that numbers and ranks have
one order and no number has two forms. Arithmetic on ratios is exact; only `ofRatio` rounds.
-/

namespace Detection

namespace Binary64

/-- Ranks of one binary exponent: `2 ^ 52` significands. -/
def binade : Nat := twoTo 52

/-- The first rank past the largest finite number. -/
def overflow : Nat := 2047 * binade

end Binary64

inductive Binary64 where
  | nan
  | infinity (negative : Bool)
  | finite (negative : Bool) (rank : Fin Binary64.overflow)
  deriving DecidableEq, Repr

namespace Binary64

def zero : Binary64 := .finite false ⟨0, by decide⟩

/-- A rank stands for `significand * 2 ^ exponent`. -/
def significand (rank : Nat) : Nat :=
  if rank < binade then rank else binade + rank % binade

def exponent (rank : Nat) : Int :=
  if rank < binade then -1074 else (rank / binade : Nat) - 1075

def ofRank (negative : Bool) (rank : Nat) : Binary64 :=
  if h : rank < overflow then .finite negative ⟨rank, h⟩ else .infinity negative

/-! ## Rounding -/

/-- The whole number nearest to `num / den`, the even one of two. -/
def roundRatio (num den : Nat) : Nat :=
  let q := num / den
  let r := num % den
  if 2 * r < den then q
  else if 2 * r = den then q + q % 2
  else q + 1

def reaches (num den : Nat) (e : Int) : Bool :=
  decide (den * twoTo e.toNat ≤ num * twoTo (-e).toNat)

/-- The exponent of the leading bit of `num / den`. -/
def leadingBit (num den : Nat) : Int :=
  let e : Int := (Nat.log2 num : Int) - Nat.log2 den
  if reaches num den e then e else e - 1

/-- The number nearest to `num / den`, the one with even significand of two. -/
def ofRatio (negative : Bool) (num den : Nat) : Binary64 :=
  if num = 0 then .finite negative ⟨0, by decide⟩
  else
    let e := max (-1074) (leadingBit num den - 52)
    let steps := roundRatio (num * twoTo (-e).toNat) (den * twoTo e.toNat)
    ofRank negative ((e + 1074).toNat * binade + steps)

def ofInt (n : Int) : Binary64 := ofRatio (n < 0) n.natAbs 1

/-- `digits * 10 ^ power`, rounded. Powers that decide the answer alone are not computed. -/
def ofDecimal (negative : Bool) (digits : Nat) (power : Int) : Binary64 :=
  let size : Int := (Nat.toDigits 10 digits).length + power
  if digits = 0 then ofRatio negative 0 1
  else if 400 < size then .infinity negative
  else if size < -400 then ofRatio negative 0 1
  else ofRatio negative (digits * tenTo power.toNat) (tenTo (-power).toNat)

/-! ## Exact values -/

/-- The whole number a finite number is equal to, if it is equal to one. -/
def toInt? : Binary64 → Option Int
  | .finite negative rank =>
    let m := significand rank
    let e := exponent rank
    let den := twoTo (-e).toNat
    if m * twoTo e.toNat % den = 0 then
      let n : Int := (m * twoTo e.toNat / den : Nat)
      some (if negative then -n else n)
    else none
  | _ => none

def isZero : Binary64 → Bool
  | .finite _ rank => rank.val = 0
  | _ => false

end Binary64

end Detection
