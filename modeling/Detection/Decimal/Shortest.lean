import Detection.Decimal.Binary64

/-! # The shortest decimal text of a number

The text has the fewest digits that read back as the number, and of the texts with that many digits
the one nearest to it.
-/

namespace Detection.Binary64

structure Ratio where
  num : Nat
  den : Nat

namespace Ratio

def scaled (n : Nat) (e : Int) : Ratio := ⟨n * twoTo e.toNat, twoTo (-e).toNat⟩

def decimal (n : Nat) (k : Int) : Ratio := ⟨n * tenTo k.toNat, tenTo (-k).toNat⟩

def less (a b : Ratio) : Bool := a.num * b.den < b.num * a.den

end Ratio

/-- The values that round to one number. Its ends belong to it when the significand is even. -/
structure Interval where
  low : Ratio
  high : Ratio
  closed : Bool

def Interval.contains (i : Interval) (x : Ratio) : Bool :=
  if i.closed then !x.less i.low && !i.high.less x else i.low.less x && x.less i.high

/-- Half a step on each side, in quarter steps; below a power of two the step is half as wide. -/
def interval (rank : Nat) : Interval :=
  let m := significand rank
  let e := exponent rank
  let below := if m = binade && binade < rank then 1 else 2
  ⟨.scaled (4 * m - below) (e - 2), .scaled (4 * m + 2) (e - 2), m % 2 = 0⟩

def value (rank : Nat) : Ratio := .scaled (significand rank) (exponent rank)

def leadingDigit (x : Ratio) : Int :=
  let e : Int := (Nat.toDigits 10 x.num).length - (Nat.toDigits 10 x.den).length
  if x.less (.decimal 1 e) then e - 1 else e

structure Digits where
  digits : Nat
  power : Int
  deriving DecidableEq, Repr

/-- The point of the grid `10 ^ k` nearest to the value among its two neighbours in the interval;
of two equally near ones the even one. -/
def onGrid (x : Ratio) (i : Interval) (k : Int) : Option Digits :=
  let den := x.den * tenTo k.toNat
  let num := x.num * tenTo (-k).toNat
  let below := num / den
  let lowOk := below != 0 && i.contains (.decimal below k)
  let highOk := i.contains (.decimal (below + 1) k)
  match lowOk, highOk with
  | true, true => some ⟨roundRatio num den, k⟩
  | true, false => some ⟨below, k⟩
  | false, true => some ⟨below + 1, k⟩
  | false, false => none

/-- Seventeen digits always suffice, so the first grid with a hit is among these. -/
def shortest (rank : Nat) : Digits :=
  let x := value rank
  let i := interval rank
  let top := leadingDigit x
  ((List.range 17).findSome? fun (n : Nat) => onGrid x i (top - n)).getD ⟨significand rank, 0⟩

/-! ## Notation -/

def trimZeros (cs : List Char) : List Char := (cs.reverse.dropWhile (· = '0')).reverse

def signedExponent (e : Int) : List Char :=
  let ds := (toString e.natAbs).toList
  (if e < 0 then '-' else '+') :: (List.replicate (2 - ds.length) '0' ++ ds)

/-- Positional from `10 ^ -4` up to `10 ^ 16`, with at least one digit after the point; otherwise
one digit, the others after a point, and an exponent of at least two digits. -/
def decimalChars (d : Digits) : List Char :=
  let all := (toString d.digits).toList
  let e := d.power + all.length - 1
  let ds := trimZeros all
  if -4 ≤ e && e < 0 then
    '0' :: '.' :: List.replicate (-e - 1).toNat '0' ++ ds
  else if 0 ≤ e && e < 16 then
    let n := e.toNat + 1
    if ds.length ≤ n then ds ++ List.replicate (n - ds.length) '0' ++ ['.', '0']
    else ds.take n ++ '.' :: ds.drop n
  else
    let head := ds.take 1
    let tail := ds.drop 1
    head ++ (if tail.isEmpty then [] else '.' :: tail) ++ 'e' :: signedExponent e

def chars : Binary64 → List Char
  | .nan => ['n', 'a', 'n']
  | .infinity negative => (if negative then ['-'] else []) ++ ['i', 'n', 'f']
  | .finite negative rank =>
    (if negative then ['-'] else []) ++
      if rank.val = 0 then ['0', '.', '0'] else decimalChars (shortest rank)

def text (x : Binary64) : String := String.ofList x.chars

end Detection.Binary64
