import Detection.Proofs.Decimal.Rounding

/-! # The shortest text of a number rounds to it

A grid with seventeen digits is finer than the steps of the numbers, so one of the points next to a
number on it lies in the interval of the number.
-/

namespace Detection.Binary64

theorem contains_iff {i : Interval} (hlow : 0 < i.low.den) (hhigh : 0 < i.high.den) {x : Ratio}
    (hx : 0 < x.den) : i.contains x = true ↔ i.Holds x.toRat := by
  have hless := Ratio.less_iff hlow hx
  have hgreater := Ratio.less_iff hx hhigh
  have hbelow := Ratio.less_iff hx hlow
  have habove := Ratio.less_iff hhigh hx
  unfold Interval.contains Interval.Holds
  split
  · simp only [Bool.and_eq_true, Bool.not_eq_true', Bool.eq_false_iff, ne_eq, hbelow, habove,
      not_lt]
  · simp only [Bool.and_eq_true, hless, hgreater]

theorem interval_contains_iff (rank n : Nat) (k : Int) :
    (interval rank).contains (.decimal n k) = true ↔ (interval rank).Holds (n * 10 ^ k) := by
  rw [contains_iff (twoTo_pos _) (twoTo_pos _) (tenTo_pos _), Ratio.toRat_decimal]

/-! ## The leading digit -/

theorem leadingDigit_spec {x : Ratio} (hnum : x.num ≠ 0) (hden : x.den ≠ 0) :
    (10 : ℚ) ^ leadingDigit x ≤ x.toRat ∧ x.toRat < 10 ^ (leadingDigit x + 1) := by
  have hten : (10 : ℚ) ≠ 0 := by norm_num
  have hden' : (0 : ℚ) < x.den := Nat.cast_pos.mpr (Nat.pos_of_ne_zero hden)
  obtain ⟨hnumlow, hnumhigh⟩ := ten_zpow_digits hnum
  obtain ⟨hdenlow, hdenhigh⟩ := ten_zpow_digits hden
  set a : Int := ((Nat.toDigits 10 x.num).length : Int)
  set b : Int := ((Nat.toDigits 10 x.den).length : Int)
  have hless : x.less (.decimal 1 (a - b)) = true ↔ x.toRat < 10 ^ (a - b) := by
    rw [Ratio.less_iff (Nat.pos_of_ne_zero hden) (tenTo_pos _), Ratio.toRat_decimal, Nat.cast_one,
      one_mul]
  -- the lengths of both numbers leave two candidates, told apart by one comparison
  have hlow : (10 : ℚ) ^ (a - b - 1) ≤ x.toRat := by
    rw [Ratio.toRat, le_div_iff₀ hden']
    calc (10 : ℚ) ^ (a - b - 1) * x.den ≤ 10 ^ (a - b - 1) * 10 ^ b := by gcongr
      _ = 10 ^ (a - 1) := by
        rw [← zpow_add₀ hten]
        ring_nf
      _ ≤ x.num := hnumlow
  have hhigh : x.toRat < 10 ^ (a - b + 1) := by
    rw [Ratio.toRat, div_lt_iff₀ hden']
    calc (x.num : ℚ) < 10 ^ a := hnumhigh
      _ = 10 ^ (a - b + 1) * 10 ^ (b - 1) := by
        rw [← zpow_add₀ hten]
        ring_nf
      _ ≤ 10 ^ (a - b + 1) * x.den := by gcongr
  have hdigit : leadingDigit x = if x.toRat < 10 ^ (a - b) then a - b - 1 else a - b :=
    if_congr hless rfl rfl
  rw [hdigit]
  split
  · rw [sub_add_cancel]
    exact ⟨hlow, ‹_›⟩
  · exact ⟨not_lt.mp ‹_›, hhigh⟩

/-! ## Grids -/

theorem roundRatio_cases (num den : Nat) :
    roundRatio num den = num / den ∨ roundRatio num den = num / den + 1 := by
  simp only [roundRatio]
  split
  · exact .inl rfl
  · split <;> omega

/-- The points just below and just above a value on a grid. -/
def gridBelow (x : Ratio) (k : Int) : Nat := x.num * tenTo (-k).toNat / (x.den * tenTo k.toNat)

theorem onGrid_contains {x : Ratio} {i : Interval} {k : Int} {d : Digits}
    (h : onGrid x i k = some d) :
    d.digits ≠ 0 ∧ i.contains (.decimal d.digits d.power) = true := by
  simp only [onGrid] at h
  split at h
  · rename_i hlow hhigh
    rw [Bool.and_eq_true, bne_iff_ne] at hlow
    cases h
    rcases roundRatio_cases (x.num * tenTo (-k).toNat) (x.den * tenTo k.toNat) with heq | heq
    · simp only [heq]
      exact hlow
    · simp only [heq]
      exact ⟨Nat.succ_ne_zero _, hhigh⟩
  · rename_i hlow hhigh
    rw [Bool.and_eq_true, bne_iff_ne] at hlow
    cases h
    exact hlow
  · rename_i hlow hhigh
    cases h
    exact ⟨Nat.succ_ne_zero _, hhigh⟩
  · cases h

theorem onGrid_isSome {x : Ratio} {i : Interval} {k : Int} (hbelow : gridBelow x k ≠ 0)
    (h : i.contains (.decimal (gridBelow x k) k) = true ∨
      i.contains (.decimal (gridBelow x k + 1) k) = true) : (onGrid x i k).isSome = true := by
  simp only [gridBelow] at hbelow h
  simp only [onGrid]
  split
  · rfl
  · rfl
  · rfl
  · rename_i hlow hhigh
    rw [bne_iff_ne.mpr hbelow, Bool.true_and] at hlow
    rw [hlow, hhigh] at h
    simp at h

theorem gridBelow_spec {x : Ratio} (hden : 0 < x.den) (k : Int) :
    (gridBelow x k : ℚ) * 10 ^ k ≤ x.toRat ∧ x.toRat < (gridBelow x k + 1) * 10 ^ k := by
  have hpow : (0 : ℚ) < 10 ^ k := zpow_pos (by norm_num) k
  have hpos : 0 < x.den * tenTo k.toNat := Nat.mul_pos hden (tenTo_pos _)
  have hpos' : (0 : ℚ) < (x.den * tenTo k.toNat : Nat) := Nat.cast_pos.mpr hpos
  have hscaled : x.toRat / 10 ^ k =
      (x.num * tenTo (-k).toNat : Nat) / (x.den * tenTo k.toNat : Nat) := by
    have := (Nat.cast_pos (α := ℚ)).mpr (tenTo_pos k.toNat)
    have := (Nat.cast_pos (α := ℚ)).mpr (tenTo_pos (-k).toNat)
    have := (Nat.cast_pos (α := ℚ)).mpr hden
    rw [Ratio.toRat, ← tenTo_div, Nat.cast_mul, Nat.cast_mul]
    field_simp
  rw [← le_div_iff₀ hpow, ← div_lt_iff₀ hpow, hscaled, le_div_iff₀ hpos', div_lt_iff₀ hpos']
  constructor
  · exact_mod_cast Nat.div_mul_le_self _ _
  · exact_mod_cast Nat.lt_mul_of_div_lt (Nat.lt_succ_self _) hpos

/-! ## The text -/

/-- Seventeen digits tell apart the numbers even where their steps get narrower. -/
theorem significand_lt_steps (rank : Nat) : 2 * significand rank < stepsBelow rank * 10 ^ 16 := by
  have hbinade : binade = 2 ^ 52 := rfl
  have hlt := significand_lt rank
  unfold stepsBelow
  split <;> omega

theorem holds_of_near {rank : Nat} (hrank : rank ≠ 0) {y : ℚ}
    (hlow : (significand rank - stepsBelow rank / 4) * 2 ^ exponent rank < y)
    (hhigh : y < (significand rank + 1 / 2) * 2 ^ exponent rank) : (interval rank).Holds y := by
  unfold Interval.Holds
  rw [interval_low hrank, interval_high]
  split
  · exact ⟨hlow.le, hhigh.le⟩
  · exact ⟨hlow, hhigh⟩

/-- One of the points next to a number on its finest grid lies in its interval. -/
theorem finest_isSome {rank : Nat} (hrank : rank ≠ 0) :
    (onGrid (value rank) (interval rank) (leadingDigit (value rank) - 16)).isSome = true := by
  have hvalue : (value rank).toRat = significand rank * 2 ^ exponent rank := Ratio.toRat_scaled _ _
  have hnum : (value rank).num ≠ 0 :=
    (Nat.mul_pos (significand_pos hrank) (twoTo_pos _)).ne'
  have hden : 0 < (value rank).den := twoTo_pos _
  obtain ⟨htop, -⟩ := leadingDigit_spec hnum hden.ne'
  set k := leadingDigit (value rank) - 16 with hk
  obtain ⟨hlow, hhigh⟩ := gridBelow_spec hden k
  have hpow : (0 : ℚ) < 2 ^ exponent rank := zpow_pos two_pos _
  have hgrid : (0 : ℚ) < 10 ^ k := zpow_pos (by norm_num) k
  have hten : (10 : ℚ) ^ leadingDigit (value rank) = 10 ^ 16 * 10 ^ k := by
    rw [← zpow_natCast, ← zpow_add₀ (by norm_num), hk]
    congr 1
    push_cast
    ring
  rw [hten] at htop
  have hbelow : gridBelow (value rank) k ≠ 0 := by
    intro hzero
    rw [hzero, Nat.cast_zero, zero_add, one_mul] at hhigh
    linarith
  -- twice the grid is less than the steps below the number
  have hfine : 2 * (10 : ℚ) ^ k < stepsBelow rank * 2 ^ exponent rank := by
    have hsteps : (2 : ℚ) * significand rank < stepsBelow rank * 10 ^ 16 := by
      exact_mod_cast significand_lt_steps rank
    have := mul_lt_mul_of_pos_right hsteps hpow
    rw [hvalue] at htop
    linarith
  have hfiner := mul_le_mul_of_nonneg_right (stepsBelow_le rank) hpow.le
  rw [hvalue] at hlow hhigh
  apply onGrid_isSome hbelow
  rw [interval_contains_iff, interval_contains_iff]
  push_cast
  rcases le_total (2 * (significand rank * (2 : ℚ) ^ exponent rank))
    ((2 * gridBelow (value rank) k + 1) * 10 ^ k) with hnear | hnear
  · exact .inl (holds_of_near hrank (by linarith) (by linarith))
  · exact .inr (holds_of_near hrank (by linarith) (by linarith))

theorem shortest_holds {rank : Nat} (hrank : rank ≠ 0) :
    (shortest rank).digits ≠ 0 ∧
      (interval rank).Holds ((shortest rank).digits * 10 ^ (shortest rank).power) := by
  have hsome : ((List.range 17).findSome? fun (n : Nat) =>
      onGrid (value rank) (interval rank) (leadingDigit (value rank) - n)).isSome = true :=
    List.findSome?_isSome_iff.mpr ⟨16, by decide, finest_isSome hrank⟩
  obtain ⟨d, hd⟩ := Option.isSome_iff_exists.mp hsome
  have hshortest : shortest rank = d := by
    rw [shortest, hd, Option.getD_some]
  obtain ⟨n, -, hgrid⟩ := List.exists_of_findSome?_eq_some hd
  obtain ⟨hdigits, hcontains⟩ := onGrid_contains hgrid
  rw [hshortest]
  exact ⟨hdigits, (interval_contains_iff rank _ _).mp hcontains⟩

end Detection.Binary64
