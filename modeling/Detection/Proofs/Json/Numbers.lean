import Detection.Json.Reader
import Detection.Json.Writer
import Detection.Proofs.Decimal.Shortest

/-! # Numbers read back as they are written

A numeral has a whole part, places behind a point where there are any, and perhaps a power of ten.
Every text of a number is one, and reads as the number.
-/

namespace Detection.Json

/-! ## Digits -/

def Digits (cs : List Char) : Prop := ∀ c ∈ cs, c.isDigit = true

theorem digits_toDigits (n : Nat) : Digits (Nat.toDigits 10 n) := fun _ hc =>
  Nat.isDigit_of_mem_toDigits (by decide) (by decide) hc

theorem digits_zeros (n : Nat) : Digits (List.replicate n '0') := by
  intro c hc
  rw [List.eq_of_mem_replicate hc]
  rfl

theorem digits_append {ds es : List Char} : Digits (ds ++ es) ↔ Digits ds ∧ Digits es := by
  simp only [Digits, List.mem_append, or_imp, forall_and]

theorem head?_toDigits {n : Nat} (h : n ≠ 0) : (Nat.toDigits 10 n).head? ≠ some '0' := by
  induction n using Nat.strong_induction_on with
  | _ n ih =>
    by_cases hsmall : n < 10
    · rw [Nat.toDigits_of_lt_base hsmall, List.head?_cons, ne_eq, Option.some.injEq,
        Nat.digitChar_eq_zero]
      exact h
    · rw [Nat.toDigits_of_base_le (by decide) (by omega),
        List.head?_append_of_ne_nil _ Nat.toDigits_ne_nil]
      exact ih (n / 10) (by omega) (by omega)

theorem digitsOf_append {ds rest : List Char} (hds : Digits ds)
    (hrest : ∀ c ∈ rest.head?, c.isDigit = false) : digitsOf (ds ++ rest) = (ds, rest) := by
  have hstop : rest.takeWhile Char.isDigit = [] ∧ rest.dropWhile Char.isDigit = rest := by
    cases rest with
    | nil => exact ⟨rfl, rfl⟩
    | cons c cs => simp [hrest c rfl]
  rw [digitsOf, List.span_eq_takeWhile_dropWhile, List.takeWhile_append_of_pos hds,
    List.dropWhile_append_of_pos hds, hstop.1, hstop.2, List.append_nil]

/-! ## Numerals -/

/-- Nothing here goes on with a number. -/
def Stops (cs : List Char) : Prop :=
  ∀ c ∈ cs.head?, c.isDigit = false ∧ c ≠ '.' ∧ c ≠ 'e' ∧ c ≠ 'E'

def fractionChars (places : List Char) : List Char := if places = [] then [] else '.' :: places

def exponentChars (power : Option Int) : List Char :=
  match power with
  | none => []
  | some e => 'e' :: Binary64.signedExponent e

/-- The parts of a number as it is written; just a zero starts with one. -/
structure Numeral where
  whole : List Char
  places : List Char
  power : Option Int
  whole_digits : Digits whole
  whole_head : whole = ['0'] ∨ (whole ≠ [] ∧ whole.head? ≠ some '0')
  places_digits : Digits places

namespace Numeral

def chars (n : Numeral) : List Char := n.whole ++ fractionChars n.places ++ exponentChars n.power

def digits (n : Numeral) : Nat := Nat.ofDigitChars 10 (n.whole ++ n.places) 0

def scale (n : Numeral) : Int := n.power.getD 0 - n.places.length

def isWhole (n : Numeral) : Bool := n.places.isEmpty && n.power.isNone

end Numeral

theorem signedExponent_eq (e : Int) :
    ∃ ds, Binary64.signedExponent e = (if e < 0 then '-' else '+') :: ds ∧ ds ≠ [] ∧ Digits ds ∧
      Nat.ofDigitChars 10 ds 0 = e.natAbs := by
  refine ⟨_, rfl, ?_, ?_, ?_⟩
  · simp [Nat.toDigits_ne_nil]
  · rw [digits_append, Nat.toString_eq_ofList_toDigits, String.toList_ofList]
    exact ⟨digits_zeros _, digits_toDigits _⟩
  · rw [Nat.ofDigitChars_append, Nat.ofDigitChars_replicate_zero, Nat.mul_zero,
      Nat.toString_eq_ofList_toDigits, String.toList_ofList, Nat.ofDigitChars_ten_toDigits]

theorem fraction?_fractionChars {places rest : List Char} (hplaces : Digits places)
    (hrest : ∀ c ∈ rest.head?, c.isDigit = false ∧ c ≠ '.') :
    fraction? (fractionChars places ++ rest) =
      if places = [] then none else some (places, rest) := by
  unfold fractionChars
  split
  · rw [List.nil_append]
    unfold fraction?
    split
    · exact absurd rfl (hrest '.' rfl).2
    · rfl
  · rename_i hne
    rw [List.cons_append, fraction?, digitsOf_append hplaces fun c hc => (hrest c hc).1]
    cases places with
    | nil => exact absurd rfl hne
    | cons c cs => rfl

theorem exponent?_exponentChars {power : Option Int} {rest : List Char} (hrest : Stops rest) :
    exponent? (exponentChars power ++ rest) = power.map (·, rest) := by
  cases power with
  | none =>
    rw [exponentChars, List.nil_append, Option.map_none]
    cases rest with
    | nil => rfl
    | cons c cs =>
      obtain ⟨-, -, he, hE⟩ := hrest c rfl
      simp [exponent?, he, hE]
  | some e =>
    obtain ⟨ds, heq, hne, hdigits, hvalue⟩ := signedExponent_eq e
    have hread := digitsOf_append hdigits fun c hc => (hrest c hc).1
    cases ds with
    | nil => exact absurd rfl hne
    | cons d ds =>
      rw [List.cons_append] at hread
      rw [exponentChars, heq, Option.map_some]
      by_cases hsign : e < 0
      · simp only [exponent?, if_pos hsign, List.cons_append, hread, hvalue]
        have habs : -(e.natAbs : Int) = e := by omega
        simp [-Nat.cast_natAbs, habs]
      · simp only [exponent?, if_neg hsign, List.cons_append, hread, hvalue]
        have habs : (e.natAbs : Int) = e := by omega
        simp [-Nat.cast_natAbs, habs]

/-! ## Reading a numeral -/

namespace Numeral

variable (n : Numeral)

theorem whole_ne_nil : n.whole ≠ [] := by
  rcases n.whole_head with h | h
  · simp [h]
  · exact h.1

theorem exponent_stops (power : Option Int) {rest : List Char} (hrest : Stops rest) :
    ∀ c ∈ (exponentChars power ++ rest).head?, c.isDigit = false ∧ c ≠ '.' := by
  cases power with
  | none => exact fun c hc => ⟨(hrest c hc).1, (hrest c hc).2.1⟩
  | some e =>
    intro c hc
    cases hc
    decide

theorem fraction_stops (places : List Char) {cs : List Char}
    (hcs : ∀ c ∈ cs.head?, c.isDigit = false) :
    ∀ c ∈ (fractionChars places ++ cs).head?, c.isDigit = false := by
  unfold fractionChars
  split
  · exact hcs
  · intro c hc
    cases hc
    decide

def wholeOf (cs : List Char) : List Char × List Char :=
  match cs with
  | '0' :: r => (['0'], r)
  | r => digitsOf r

theorem wholeOf_append {cs : List Char} (hcs : ∀ c ∈ cs.head?, c.isDigit = false) :
    wholeOf (n.whole ++ cs) = (n.whole, cs) := by
  rcases n.whole_head with h | ⟨hne, hhead⟩
  · rw [h]
    rfl
  · unfold wholeOf
    split
    · rename_i heq
      exact absurd (by rw [← List.head?_append_of_ne_nil _ hne, heq]; rfl) hhead
    · exact digitsOf_append n.whole_digits hcs

end Numeral

def unsigned (negative : Bool) (body : List Char) : Option (Value × List Char) :=
  let (whole, rest) := Numeral.wholeOf body
  if whole.isEmpty then none
  else
    let (places, rest, isWhole) := match fraction? rest with
      | some (ds, r) => (ds, r, false)
      | none => ([], rest, true)
    let (power, rest, isWhole) := match exponent? rest with
      | some (e, r) => (e, r, false)
      | none => (0, rest, isWhole)
    let n := Nat.ofDigitChars 10 (whole ++ places) 0
    if isWhole then some (.int (if negative then -(n : Int) else n), rest)
    else some (.real (Binary64.ofDecimal negative n (power - places.length)), rest)

theorem number?_minus (body : List Char) : number? ('-' :: body) = unsigned true body := rfl

theorem number?_unsigned {body : List Char} (h : body.head? ≠ some '-') :
    number? body = unsigned false body := by
  unfold number?
  split
  rename_i heq
  split at heq
  · exact absurd rfl h
  · cases heq
    rfl

theorem unsigned_eq (negative : Bool) {cs₀ cs₁ cs₂ rest whole places : List Char}
    {power : Option Int} (hwhole : Numeral.wholeOf cs₀ = (whole, cs₁)) (hne : whole ≠ [])
    (hplaces : fraction? cs₁ = if places = [] then none else some (places, cs₂))
    (hnoplaces : places = [] → cs₁ = cs₂) (hpower : exponent? cs₂ = power.map (·, rest))
    (hnopower : power = none → cs₂ = rest) :
    unsigned negative cs₀ =
      let n := Nat.ofDigitChars 10 (whole ++ places) 0
      some (if places.isEmpty && power.isNone then .int (if negative then -(n : Int) else n)
        else .real (Binary64.ofDecimal negative n (power.getD 0 - places.length)), rest) := by
  rw [unsigned, hwhole]
  by_cases hempty : places = []
  · rw [if_pos hempty] at hplaces
    cases power <;> simp_all
  · rw [if_neg hempty] at hplaces
    cases power <;> simp_all

theorem unsigned_numeral (n : Numeral) (negative : Bool) {rest : List Char} (hrest : Stops rest) :
    unsigned negative (n.chars ++ rest) =
      some (if n.isWhole then .int (if negative then -(n.digits : Int) else n.digits)
        else .real (Binary64.ofDecimal negative n.digits n.scale), rest) := by
  have hstops := Numeral.exponent_stops n.power hrest
  have hwhole := n.wholeOf_append
    (Numeral.fraction_stops n.places fun c hc => (hstops c hc).1)
  rw [Numeral.chars, List.append_assoc, List.append_assoc]
  refine unsigned_eq negative hwhole n.whole_ne_nil (fraction?_fractionChars n.places_digits hstops)
    ?_ (exponent?_exponentChars hrest) ?_
  · intro hplaces
    rw [fractionChars, if_pos hplaces, List.nil_append]
  · intro hpower
    rw [hpower]
    rfl

theorem Numeral.head?_chars (n : Numeral) : ∃ c cs, n.chars = c :: cs ∧ c.isDigit = true := by
  obtain ⟨c, cs, hwhole⟩ := List.exists_cons_of_ne_nil n.whole_ne_nil
  refine ⟨c, cs ++ fractionChars n.places ++ exponentChars n.power, ?_, ?_⟩
  · rw [chars, hwhole]
    rfl
  · exact n.whole_digits c (by simp [hwhole])

theorem number?_numeral (n : Numeral) (negative : Bool) {rest : List Char} (hrest : Stops rest) :
    number? ((if negative then ['-'] else []) ++ (n.chars ++ rest)) =
      some (if n.isWhole then .int (if negative then -(n.digits : Int) else n.digits)
        else .real (Binary64.ofDecimal negative n.digits n.scale), rest) := by
  cases negative with
  | true => exact (number?_minus _).trans (unsigned_numeral n true hrest)
  | false =>
    refine (number?_unsigned ?_).trans (unsigned_numeral n false hrest)
    obtain ⟨c, cs, hchars, hdigit⟩ := n.head?_chars
    rw [hchars]
    rintro heq
    cases heq
    cases hdigit

/-! ## The texts of numbers -/

def Numeral.ofNat (n : Nat) : Numeral where
  whole := Nat.toDigits 10 n
  places := []
  power := none
  whole_digits := digits_toDigits n
  whole_head := by
    by_cases h : n = 0
    · exact .inl (by rw [h, Nat.toDigits_zero])
    · exact .inr ⟨Nat.toDigits_ne_nil, head?_toDigits h⟩
  places_digits := by simp [Digits]

theorem Numeral.chars_ofNat (n : Nat) : (ofNat n).chars = Nat.toDigits 10 n := by
  simp [chars, ofNat, fractionChars, exponentChars]

theorem Numeral.digits_ofNat (n : Nat) : (ofNat n).digits = n := by
  rw [digits, ofNat, List.append_nil, Nat.ofDigitChars_ten_toDigits]

theorem exists_sign (n : Int) :
    ∃ (negative : Bool) (m : Nat), (if negative then -(m : Int) else m) = n ∧
      (toString n).toList = (if negative then ['-'] else []) ++ (Numeral.ofNat m).chars := by
  cases n with
  | ofNat n =>
    refine ⟨false, n, rfl, ?_⟩
    change (toString n).toList = _
    rw [Nat.toString_eq_ofList_toDigits, String.toList_ofList, Numeral.chars_ofNat]
    rfl
  | negSucc n =>
    refine ⟨true, n + 1, rfl, ?_⟩
    change ("-" ++ toString (n + 1)).toList = _
    rw [Numeral.chars_ofNat]
    simp

theorem trimZeros_append (cs : List Char) :
    ∃ n, cs = Binary64.trimZeros cs ++ List.replicate n '0' := by
  have hzeros : cs.reverse.takeWhile (· = '0') =
      List.replicate (cs.reverse.takeWhile (· = '0')).length '0' := by
    rw [List.eq_replicate_length]
    intro c hc
    exact of_decide_eq_true (List.all_eq_true.mp List.all_takeWhile c hc)
  have hsplit := List.takeWhile_append_dropWhile (p := (· = '0')) (l := cs.reverse)
  refine ⟨(cs.reverse.takeWhile (· = '0')).length, ?_⟩
  rw [Binary64.trimZeros, ← List.reverse_replicate, ← hzeros, ← List.reverse_append, hsplit,
    List.reverse_reverse]

/-- These are the digits of a number, less so many zeros at their end. -/
structure Trimmed (n : Nat) (ds : List Char) (zeros : Nat) : Prop where
  trim : Binary64.trimZeros (Nat.toDigits 10 n) = ds
  length : (Nat.toDigits 10 n).length = ds.length + zeros
  digits : Digits ds
  ne_nil : ds ≠ []
  head : ds.head? ≠ some '0'
  value : n = 10 ^ zeros * Nat.ofDigitChars 10 ds 0

theorem exists_trimmed {n : Nat} (h : n ≠ 0) : ∃ ds zeros, Trimmed n ds zeros := by
  obtain ⟨zeros, hsplit⟩ := trimZeros_append (Nat.toDigits 10 n)
  set ds := Binary64.trimZeros (Nat.toDigits 10 n) with hds
  have hhead := head?_toDigits h
  have hne : ds ≠ [] := by
    intro hnil
    rw [hnil, List.nil_append] at hsplit
    cases zeros with
    | zero => exact Nat.toDigits_ne_nil hsplit
    | succ zeros => exact hhead (by rw [hsplit]; rfl)
  refine ⟨ds, zeros, hds.symm, ?_, ?_, hne, ?_, ?_⟩
  · rw [hsplit, List.length_append, List.length_replicate]
  · have hdigits := digits_toDigits n
    rw [hsplit, digits_append] at hdigits
    exact hdigits.1
  · rwa [hsplit, List.head?_append_of_ne_nil _ hne] at hhead
  · have hvalue := Nat.ofDigitChars_ten_toDigits (n := n)
    rw [hsplit, Nat.ofDigitChars_append, Nat.ofDigitChars_replicate_zero] at hvalue
    exact hvalue.symm

theorem ofDigitChars_zeros (n : Nat) (cs : List Char) :
    Nat.ofDigitChars 10 (List.replicate n '0' ++ cs) 0 = Nat.ofDigitChars 10 cs 0 := by
  rw [Nat.ofDigitChars_append, Nat.ofDigitChars_replicate_zero, Nat.mul_zero]

namespace Trimmed

variable {n : Nat} {ds : List Char} {zeros : Nat}

theorem scaled (h : Trimmed n ds zeros) {m k : Nat} {e power : Int}
    (hm : m = 10 ^ k * Nat.ofDigitChars 10 ds 0) (he : e + k = power + zeros) :
    (m : ℚ) * 10 ^ e = n * 10 ^ power := by
  have hten : (10 : ℚ) ≠ 0 := by norm_num
  rw [hm, h.value]
  push_cast
  rw [← zpow_natCast, ← zpow_natCast, mul_right_comm, ← zpow_add₀ hten, mul_right_comm,
    ← zpow_add₀ hten, add_comm (k : Int), he, add_comm (zeros : Int)]

theorem exists_small (h : Trimmed n ds zeros) (power : Int) (places : Nat)
    (hplaces : power + (ds.length + zeros) = -places) :
    ∃ m : Numeral, '0' :: '.' :: List.replicate places '0' ++ ds = m.chars ∧ m.isWhole = false ∧
      (m.digits : ℚ) * 10 ^ m.scale = n * 10 ^ power := by
  refine ⟨⟨['0'], List.replicate places '0' ++ ds, none, digits_zeros 1, .inl rfl,
    digits_append.mpr ⟨digits_zeros _, h.digits⟩⟩, ?_, ?_, h.scaled (k := 0) ?_ ?_⟩
  · simp [Numeral.chars, fractionChars, exponentChars, h.ne_nil]
  · simp [Numeral.isWhole, h.ne_nil]
  · rw [Numeral.digits, Nat.pow_zero, Nat.one_mul]
    exact ofDigitChars_zeros (places + 1) ds
  · simp only [Numeral.scale, List.length_append, List.length_replicate, Option.getD_none]
    omega

theorem exists_short (h : Trimmed n ds zeros) (power : Int) (more : Nat)
    (hmore : power + zeros = more) :
    ∃ m : Numeral, ds ++ List.replicate more '0' ++ ['.', '0'] = m.chars ∧ m.isWhole = false ∧
      (m.digits : ℚ) * 10 ^ m.scale = n * 10 ^ power := by
  refine ⟨⟨ds ++ List.replicate more '0', ['0'], none,
    digits_append.mpr ⟨h.digits, digits_zeros _⟩, .inr ⟨?_, ?_⟩, digits_zeros 1⟩, ?_, rfl,
    h.scaled (k := more + 1) ?_ ?_⟩
  · exact List.append_ne_nil_of_left_ne_nil h.ne_nil _
  · rw [List.head?_append_of_ne_nil _ h.ne_nil]
    exact h.head
  · simp [Numeral.chars, fractionChars, exponentChars]
  · rw [Numeral.digits, List.append_assoc, ← List.replicate_succ', Nat.ofDigitChars_append,
      Nat.ofDigitChars_replicate_zero]
  · simp only [Numeral.scale, List.length_singleton, Option.getD_none]
    push_cast
    omega

theorem head?_take (h : Trimmed n ds zeros) {whole : Nat} (hwhole : 0 < whole) :
    ds.take whole ≠ [] ∧ (ds.take whole).head? ≠ some '0' := by
  rw [List.head?_take, if_neg hwhole.ne']
  refine ⟨?_, h.head⟩
  rw [ne_eq, List.take_eq_nil_iff, not_or]
  exact ⟨hwhole.ne', h.ne_nil⟩

theorem exists_long (h : Trimmed n ds zeros) (power : Int) (whole : Nat) (hwhole : 0 < whole)
    (hlong : whole < ds.length) (hpower : power + (ds.length + zeros) = whole) :
    ∃ m : Numeral, ds.take whole ++ '.' :: ds.drop whole = m.chars ∧ m.isWhole = false ∧
      (m.digits : ℚ) * 10 ^ m.scale = n * 10 ^ power := by
  have hplaces : ds.drop whole ≠ [] := by
    rw [ne_eq, List.drop_eq_nil_iff]
    omega
  refine ⟨⟨ds.take whole, ds.drop whole, none, fun c hc => h.digits c (List.mem_of_mem_take hc),
    .inr (h.head?_take hwhole), fun c hc => h.digits c (List.mem_of_mem_drop hc)⟩, ?_, ?_,
    h.scaled (k := 0) ?_ ?_⟩
  · simp [Numeral.chars, fractionChars, exponentChars, hplaces]
  · simp [Numeral.isWhole, hplaces]
  · rw [Numeral.digits, List.take_append_drop, Nat.pow_zero, Nat.one_mul]
  · simp only [Numeral.scale, List.length_drop, Option.getD_none]
    omega

theorem exists_scientific (h : Trimmed n ds zeros) (power e : Int)
    (he : power + (ds.length + zeros) - 1 = e) :
    ∃ m : Numeral, ds.take 1 ++ (if (ds.drop 1).isEmpty then [] else '.' :: ds.drop 1) ++
        'e' :: Binary64.signedExponent e = m.chars ∧ m.isWhole = false ∧
      (m.digits : ℚ) * 10 ^ m.scale = n * 10 ^ power := by
  refine ⟨⟨ds.take 1, ds.drop 1, some e, fun c hc => h.digits c (List.mem_of_mem_take hc),
    .inr (h.head?_take Nat.one_pos), fun c hc => h.digits c (List.mem_of_mem_drop hc)⟩, ?_, ?_,
    h.scaled (k := 0) ?_ ?_⟩
  · simp only [Numeral.chars, fractionChars, exponentChars, List.isEmpty_iff]
  · simp [Numeral.isWhole]
  · rw [Numeral.digits, List.take_append_drop, Nat.pow_zero, Nat.one_mul]
  · have hpos := List.length_pos_of_ne_nil h.ne_nil
    simp only [Numeral.scale, List.length_drop, Option.getD_some]
    omega

end Trimmed

theorem decimalChars_numeral {d : Binary64.Digits} (hd : d.digits ≠ 0) :
    ∃ n : Numeral, Binary64.decimalChars d = n.chars ∧ n.isWhole = false ∧
      (n.digits : ℚ) * 10 ^ n.scale = d.digits * 10 ^ d.power := by
  obtain ⟨ds, zeros, h⟩ := exists_trimmed hd
  have hall : (toString d.digits).toList = Nat.toDigits 10 d.digits := by
    rw [Nat.toString_eq_ofList_toDigits, String.toList_ofList]
  simp only [Binary64.decimalChars, hall, h.trim, h.length]
  set e : Int := d.power + (ds.length + zeros : Nat) - 1 with he
  split
  · rename_i hsmall
    simp only [Bool.and_eq_true, decide_eq_true_eq] at hsmall
    exact h.exists_small d.power (-e - 1).toNat (by omega)
  · split
    · rename_i hmiddle
      simp only [Bool.and_eq_true, decide_eq_true_eq] at hmiddle
      split
      · rename_i hshort
        exact h.exists_short d.power (e.toNat + 1 - ds.length) (by omega)
      · rename_i hlong
        exact h.exists_long d.power (e.toNat + 1) (by omega) (by omega) (by omega)
    · exact h.exists_scientific d.power e (by rw [he, Nat.cast_add])

def Numeral.zero : Numeral where
  whole := ['0']
  places := ['0']
  power := none
  whole_digits := digits_zeros 1
  whole_head := .inl rfl
  places_digits := digits_zeros 1

theorem exists_numeral (negative : Bool) (rank : Fin Binary64.overflow) :
    ∃ n : Numeral, (Binary64.finite negative rank).chars =
        (if negative then ['-'] else []) ++ n.chars ∧ n.isWhole = false ∧
      Binary64.ofDecimal negative n.digits n.scale = .finite negative rank := by
  obtain ⟨rank, hrank⟩ := rank
  by_cases hzero : rank = 0
  · subst hzero
    exact ⟨.zero, rfl, rfl, by cases negative <;> rfl⟩
  · obtain ⟨hdigits, hholds⟩ := Binary64.shortest_holds hzero
    obtain ⟨n, hchars, hwhole, hvalue⟩ := decimalChars_numeral hdigits
    refine ⟨n, ?_, hwhole, Binary64.ofDecimal_eq negative hzero hrank (by rwa [hvalue])⟩
    rw [Binary64.chars, if_neg hzero, hchars]

end Detection.Json
