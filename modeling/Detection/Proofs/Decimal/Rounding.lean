import Mathlib.Algebra.Order.Field.Power
import Mathlib.Tactic.FieldSimp
import Mathlib.Tactic.Linarith
import Mathlib.Tactic.NormNum
import Mathlib.Tactic.Positivity
import Mathlib.Tactic.Ring
import Mathlib.Data.Rat.Cast.Order
import Detection.Decimal.Shortest

/-! # Rounding to the nearest number

All values that round to one number lie in its interval, and every value in there does round to it.
-/

namespace Detection

/-! ## Powers -/

theorem twoTo_pos (n : Nat) : 0 < twoTo n := Nat.pow_pos (by decide)

theorem tenTo_pos (n : Nat) : 0 < tenTo n := Nat.pow_pos (by decide)

theorem cast_twoTo (n : Nat) : (twoTo n : ℚ) = 2 ^ n := by
  simp [twoTo]

theorem cast_tenTo (n : Nat) : (tenTo n : ℚ) = 10 ^ n := by
  simp [tenTo]

theorem zpow_eq_div {b : ℚ} (hb : b ≠ 0) (e : Int) : b ^ e = b ^ e.toNat / b ^ (-e).toNat := by
  rw [← zpow_natCast, ← zpow_natCast, ← zpow_sub₀ hb]
  congr 1
  omega

theorem twoTo_div (e : Int) : (twoTo e.toNat : ℚ) / twoTo (-e).toNat = 2 ^ e := by
  rw [cast_twoTo, cast_twoTo, ← zpow_eq_div two_ne_zero]

theorem tenTo_div (e : Int) : (tenTo e.toNat : ℚ) / tenTo (-e).toNat = 10 ^ e := by
  rw [cast_tenTo, cast_tenTo, ← zpow_eq_div (by norm_num)]

namespace Binary64

/-! ## Ratios -/

namespace Ratio

def toRat (x : Ratio) : ℚ := x.num / x.den

theorem toRat_scaled (n : Nat) (e : Int) : (scaled n e).toRat = n * 2 ^ e := by
  rw [toRat, scaled, Nat.cast_mul, mul_div_assoc, twoTo_div]

theorem toRat_decimal (n : Nat) (k : Int) : (decimal n k).toRat = n * 10 ^ k := by
  rw [toRat, decimal, Nat.cast_mul, mul_div_assoc, tenTo_div]

theorem less_iff {x y : Ratio} (hx : 0 < x.den) (hy : 0 < y.den) :
    x.less y = true ↔ x.toRat < y.toRat := by
  have hx' : (0 : ℚ) < x.den := Nat.cast_pos.mpr hx
  have hy' : (0 : ℚ) < y.den := Nat.cast_pos.mpr hy
  rw [less, decide_eq_true_eq, toRat, toRat, div_lt_div_iff₀ hx' hy', ← Nat.cast_mul,
    ← Nat.cast_mul, Nat.cast_lt]

end Ratio

/-! ## Nearest whole numbers -/

theorem div_eq_quotient_add (num : Nat) {den : Nat} (hden : 0 < den) :
    (num : ℚ) / den = (num / den : Nat) + (num % den : Nat) / (den : ℚ) := by
  have hden' : (0 : ℚ) < den := Nat.cast_pos.mpr hden
  rw [add_div' _ _ _ hden'.ne', div_left_inj' hden'.ne']
  exact_mod_cast (Nat.div_add_mod' num den).symm

theorem roundRatio_eq {num den n : Nat} (hden : 0 < den) (hlow : (n : ℚ) - 1 / 2 ≤ num / den)
    (hhigh : (num : ℚ) / den ≤ n + 1 / 2)
    (htie : (num : ℚ) / den = n - 1 / 2 ∨ (num : ℚ) / den = n + 1 / 2 → n % 2 = 0) :
    roundRatio num den = n := by
  have hden' : (0 : ℚ) < den := Nat.cast_pos.mpr hden
  have hpart : 0 ≤ ((num % den : Nat) : ℚ) / den := by positivity
  have hbelow : ((num % den : Nat) : ℚ) / den < 1 := by
    rw [div_lt_one hden', Nat.cast_lt]
    exact Nat.mod_lt _ hden
  have hless : 2 * (num % den) < den ↔ ((num % den : Nat) : ℚ) / den < 1 / 2 := by
    rw [div_lt_div_iff₀ hden' two_pos, one_mul, mul_comm]
    exact_mod_cast Iff.rfl
  have hhalf : 2 * (num % den) = den ↔ ((num % den : Nat) : ℚ) / den = 1 / 2 := by
    rw [div_eq_div_iff hden'.ne' two_ne_zero, one_mul, mul_comm]
    exact_mod_cast Iff.rfl
  rw [div_eq_quotient_add num hden] at hlow hhigh htie
  simp only [roundRatio, hless, hhalf]
  generalize num / den = q at *
  generalize ((num % den : Nat) : ℚ) / den = part at *
  -- the part left over is less than a half, a half, or more
  split
  · have hle : (n : ℚ) < q + 1 := by linarith
    have hge : (q : ℚ) < n + 1 := by linarith
    norm_cast at hle hge
    omega
  · split
    · rename_i hpart
      have hle : (n : ℚ) < q + 2 := by linarith
      have hge : (q : ℚ) < n + 1 := by linarith
      norm_cast at hle hge
      have heven : n % 2 = 0 := by
        apply htie
        rcases (by omega : n = q ∨ n = q + 1) with rfl | rfl
        · right
          rw [hpart]
        · left
          rw [hpart]
          push_cast
          ring
      omega
    · have hle : (n : ℚ) < q + 2 := by linarith
      have hge : (q : ℚ) < n := by
        have : 1 / 2 < part := lt_of_le_of_ne (not_lt.mp ‹_›) (Ne.symm ‹_›)
        linarith
      norm_cast at hle hge
      omega

/-! ## The leading bit -/

theorem reaches_iff {num den : Nat} (hden : 0 < den) (e : Int) :
    reaches num den e = true ↔ (2 : ℚ) ^ e ≤ num / den := by
  have hden' : (0 : ℚ) < den := Nat.cast_pos.mpr hden
  have htwo : (0 : ℚ) < twoTo (-e).toNat := Nat.cast_pos.mpr (twoTo_pos _)
  rw [reaches, decide_eq_true_eq, ← twoTo_div, div_le_div_iff₀ htwo hden', mul_comm den]
  exact_mod_cast Iff.rfl

theorem two_zpow_log2 {n : Nat} (hn : n ≠ 0) :
    (2 : ℚ) ^ (Nat.log2 n : Int) ≤ n ∧ (n : ℚ) < 2 ^ (Nat.log2 n + 1 : Int) := by
  have hlow := Nat.log2_self_le hn
  have hhigh := Nat.lt_log2_self (n := n)
  constructor
  · rw [zpow_natCast]
    exact_mod_cast hlow
  · rw [← Nat.cast_succ, zpow_natCast]
    exact_mod_cast hhigh

theorem le_leadingBit_iff {num den : Nat} (hnum : num ≠ 0) (hden : 0 < den) (n : Int) :
    n ≤ leadingBit num den ↔ (2 : ℚ) ^ n ≤ num / den := by
  have hden' : (0 : ℚ) < den := Nat.cast_pos.mpr hden
  obtain ⟨hnumlow, hnumhigh⟩ := two_zpow_log2 hnum
  obtain ⟨hdenlow, hdenhigh⟩ := two_zpow_log2 hden.ne'
  have hmono (a b : Int) : (2 : ℚ) ^ a < 2 ^ b ↔ a < b := zpow_lt_zpow_iff_right₀ one_lt_two
  set e : Int := (Nat.log2 num : Int) - Nat.log2 den with he
  -- the lengths of both numbers leave two candidates
  have hhigh : (num : ℚ) / den < 2 ^ (e + 1) := by
    rw [div_lt_iff₀ hden']
    calc (num : ℚ) < 2 ^ (Nat.log2 num + 1 : Int) := hnumhigh
      _ = 2 ^ (e + 1) * 2 ^ (Nat.log2 den : Int) := by
        rw [← zpow_add₀ two_ne_zero, he]
        ring_nf
      _ ≤ 2 ^ (e + 1) * den := by gcongr
  have hlow : (2 : ℚ) ^ (e - 1) < num / den := by
    rw [lt_div_iff₀ hden']
    calc (2 : ℚ) ^ (e - 1) * den < 2 ^ (e - 1) * 2 ^ (Nat.log2 den + 1 : Int) := by gcongr
      _ = 2 ^ (Nat.log2 num : Int) := by
        rw [← zpow_add₀ two_ne_zero, he]
        ring_nf
      _ ≤ num := hnumlow
  have hbit : leadingBit num den = if (2 : ℚ) ^ e ≤ num / den then e else e - 1 := by
    simp only [leadingBit, ← he, reaches_iff hden]
  have hreach (b : Int) (hb : (2 : ℚ) ^ b ≤ num / den) (hb' : (num : ℚ) / den < 2 ^ (b + 1)) :
      n ≤ b ↔ (2 : ℚ) ^ n ≤ num / den := by
    constructor
    · intro hn
      exact le_trans (zpow_le_zpow_right₀ one_le_two hn) hb
    · intro hn
      have := (hmono n (b + 1)).mp (lt_of_le_of_lt hn hb')
      omega
  rw [hbit]
  split
  · exact hreach e ‹_› hhigh
  · refine hreach (e - 1) hlow.le ?_
    rw [sub_add_cancel]
    exact not_le.mp ‹_›

/-! ## Intervals -/

def Interval.Holds (i : Interval) (x : ℚ) : Prop :=
  if i.closed then i.low.toRat ≤ x ∧ x ≤ i.high.toRat else i.low.toRat < x ∧ x < i.high.toRat

theorem binade_pos : 0 < binade := twoTo_pos 52

theorem significand_lt (rank : Nat) : significand rank < 2 * binade := by
  have hmod : rank % binade < binade := Nat.mod_lt _ binade_pos
  unfold significand
  split <;> omega

theorem le_exponent (rank : Nat) : -1074 ≤ exponent rank := by
  unfold exponent
  split
  · omega
  · have hdiv : 1 ≤ rank / binade := (Nat.one_le_div_iff binade_pos).mpr (by omega)
    omega

theorem binade_le_significand {rank : Nat} (h : exponent rank ≠ -1074) :
    binade ≤ significand rank ∧ 2 * binade ≤ rank := by
  unfold exponent at h
  split at h
  · exact absurd rfl h
  · have hone : 1 ≤ rank / binade := (Nat.one_le_div_iff binade_pos).mpr (by omega)
    have hdiv : 2 ≤ rank / binade := by omega
    have htwice : 2 * binade ≤ rank := (Nat.le_div_iff_mul_le binade_pos).mp hdiv
    rw [significand, if_neg (by omega)]
    exact ⟨Nat.le_add_right _ _, htwice⟩

theorem rank_eq (rank : Nat) : (exponent rank + 1074).toNat * binade + significand rank = rank := by
  unfold exponent significand
  split
  · simp
  · have hdiv : 1 ≤ rank / binade := (Nat.one_le_div_iff binade_pos).mpr (by omega)
    have hexponent : ((rank / binade : Nat) - 1075 + 1074 : Int).toNat = rank / binade - 1 := by
      omega
    rw [hexponent, ← Nat.add_assoc, ← Nat.succ_mul, Nat.succ_eq_add_one, Nat.sub_add_cancel hdiv,
      Nat.div_add_mod']

theorem significand_pos {rank : Nat} (h : rank ≠ 0) : 0 < significand rank := by
  have hbinade := binade_pos
  unfold significand
  split <;> omega

/-- The quarter steps from a number down to the low end of its interval. -/
def stepsBelow (rank : Nat) : Nat :=
  if significand rank = binade ∧ binade < rank then 1 else 2

theorem interval_low {rank : Nat} (h : rank ≠ 0) :
    (interval rank).low.toRat =
      (significand rank - stepsBelow rank / 4) * 2 ^ exponent rank := by
  have hpos := significand_pos h
  have hsteps : stepsBelow rank ≤ 4 * significand rank := by
    unfold stepsBelow
    split <;> omega
  have hlow : (interval rank).low =
      .scaled (4 * significand rank - stepsBelow rank) (exponent rank - 2) := by
    simp [interval, stepsBelow]
  rw [hlow, Ratio.toRat_scaled, Nat.cast_sub hsteps, zpow_sub₀ two_ne_zero]
  push_cast
  ring

theorem interval_high (rank : Nat) :
    (interval rank).high.toRat = (significand rank + 1 / 2) * 2 ^ exponent rank := by
  rw [interval, Ratio.toRat_scaled, zpow_sub₀ two_ne_zero]
  push_cast
  ring

/-- The ends of an interval belong to it just where the significand is even. -/
theorem bounds_of_holds {rank : Nat} (h : rank ≠ 0) {x : ℚ} (hx : (interval rank).Holds x) :
    (significand rank - stepsBelow rank / 4) * 2 ^ exponent rank ≤ x ∧
      x ≤ (significand rank + 1 / 2) * 2 ^ exponent rank ∧
      (x = (significand rank - stepsBelow rank / 4) * 2 ^ exponent rank ∨
        x = (significand rank + 1 / 2) * 2 ^ exponent rank → significand rank % 2 = 0) := by
  have hclosed : (interval rank).closed = decide (significand rank % 2 = 0) := rfl
  rw [Interval.Holds, hclosed, interval_low h, interval_high] at hx
  split at hx
  · rename_i heven
    exact ⟨hx.1, hx.2, fun _ => of_decide_eq_true heven⟩
  · refine ⟨hx.1.le, hx.2.le, ?_⟩
    rintro (heq | heq)
    · exact absurd hx.1 (by rw [heq]; exact lt_irrefl _)
    · exact absurd hx.2 (by rw [heq]; exact lt_irrefl _)

/-! ## Rounding -/

theorem steps_eq {num den n : Nat} (hden : 0 < den) {e : Int}
    (hlow : ((n : ℚ) - 1 / 2) * 2 ^ e ≤ num / den) (hhigh : (num : ℚ) / den ≤ (n + 1 / 2) * 2 ^ e)
    (htie : (num : ℚ) / den = (n - 1 / 2) * 2 ^ e ∨ (num : ℚ) / den = (n + 1 / 2) * 2 ^ e →
      n % 2 = 0) :
    roundRatio (num * twoTo (-e).toNat) (den * twoTo e.toNat) = n := by
  have hpow : (0 : ℚ) < 2 ^ e := zpow_pos two_pos e
  have hscaled : ((num * twoTo (-e).toNat : Nat) : ℚ) / (den * twoTo e.toNat : Nat) =
      num / den / 2 ^ e := by
    rw [← twoTo_div, Nat.cast_mul, Nat.cast_mul]
    have := (Nat.cast_pos (α := ℚ)).mpr (twoTo_pos e.toNat)
    have := (Nat.cast_pos (α := ℚ)).mpr (twoTo_pos (-e).toNat)
    field_simp
  apply roundRatio_eq (Nat.mul_pos hden (twoTo_pos _))
  · rwa [hscaled, le_div_iff₀ hpow]
  · rwa [hscaled, div_le_iff₀ hpow]
  · rwa [hscaled, div_eq_iff hpow.ne', div_eq_iff hpow.ne']

theorem ofRatio_steps (negative : Bool) {num den n : Nat} (hnum : num ≠ 0) {e : Int}
    (he : max (-1074) (leadingBit num den - 52) = e)
    (hsteps : roundRatio (num * twoTo (-e).toNat) (den * twoTo e.toNat) = n) :
    ofRatio negative num den = ofRank negative ((e + 1074).toNat * binade + n) := by
  simp only [ofRatio, if_neg hnum, he, hsteps]

theorem stepsBelow_le (rank : Nat) : (stepsBelow rank : ℚ) ≤ 2 := by
  unfold stepsBelow
  split <;> norm_num

theorem pos_of_holds {rank : Nat} (h : rank ≠ 0) {x : ℚ} (hx : (interval rank).Holds x) :
    0 < x := by
  have hone : (1 : ℚ) ≤ significand rank := by exact_mod_cast significand_pos h
  have hbelow := stepsBelow_le rank
  refine lt_of_lt_of_le (mul_pos ?_ (zpow_pos two_pos _)) (bounds_of_holds h hx).1
  linarith

theorem binade_zpow (e : Int) : (2 : ℚ) ^ (e + 52) = binade * 2 ^ e := by
  rw [binade, cast_twoTo, zpow_add₀ two_ne_zero, mul_comm]
  norm_cast

section Rounded

variable (negative : Bool) {num den rank : Nat}

theorem num_ne_zero (hrank : rank ≠ 0) (hx : (interval rank).Holds (num / den)) : num ≠ 0 := by
  rintro rfl
  have hpos := pos_of_holds hrank hx
  rw [Nat.cast_zero, zero_div] at hpos
  exact lt_irrefl _ hpos

/-- A number of the least exponent, or one that reaches the leading bit of what it rounds to. -/
theorem ofRatio_reached (hden : 0 < den) (hrank : rank ≠ 0)
    (hx : (interval rank).Holds (num / den))
    (hreach : exponent rank = -1074 ∨ (2 : ℚ) ^ (exponent rank + 52) ≤ num / den) :
    ofRatio negative num den = ofRank negative rank := by
  obtain ⟨hlow, hhigh, htie⟩ := bounds_of_holds hrank hx
  have hbelow := stepsBelow_le rank
  have hpow : (0 : ℚ) < 2 ^ exponent rank := zpow_pos two_pos _
  have hnum := num_ne_zero hrank hx
  have hbit := le_leadingBit_iff hnum hden
  -- so both numbers have one exponent, and the steps of the rank are those of the ratio
  have hlast : ¬exponent rank + 53 ≤ leadingBit num den := by
    have hlt : (significand rank : ℚ) + 1 ≤ 2 * binade := by exact_mod_cast significand_lt rank
    have htwice : (2 : ℚ) ^ (exponent rank + 53) = 2 * binade * 2 ^ exponent rank := by
      rw [show exponent rank + 53 = exponent rank + 1 + 52 by ring, binade_zpow,
        zpow_add_one₀ two_ne_zero]
      ring
    rw [hbit, not_le, htwice]
    exact lt_of_le_of_lt hhigh (mul_lt_mul_of_pos_right (by linarith) hpow)
  have he : max (-1074) (leadingBit num den - 52) = exponent rank := by
    have hmin := le_exponent rank
    rcases hreach with hfirst | hreach
    · omega
    · have := (hbit _).mpr hreach
      omega
  have hwider : ((significand rank : ℚ) - 1 / 2) * 2 ^ exponent rank ≤
      (significand rank - stepsBelow rank / 4) * 2 ^ exponent rank :=
    mul_le_mul_of_nonneg_right (by linarith) hpow.le
  have hsteps := steps_eq hden (hwider.trans hlow) hhigh (by
    rintro (heq | heq)
    · exact htie (.inl (le_antisymm (heq ▸ hwider) hlow))
    · exact htie (.inr heq))
  rw [ofRatio_steps negative hnum he hsteps, rank_eq]

/-- What rounds up to a power of two without reaching it does so in steps half as wide. -/
theorem steps_of_less {x : ℚ} (hrank : rank ≠ 0) (hx : (interval rank).Holds x)
    (hexponent : exponent rank ≠ -1074) (hless : x < 2 ^ (exponent rank + 52)) :
    significand rank = binade ∧ stepsBelow rank = 1 := by
  obtain ⟨hlow, -, -⟩ := bounds_of_holds hrank hx
  have hbelow := stepsBelow_le rank
  have hpow : (0 : ℚ) < 2 ^ exponent rank := zpow_pos two_pos _
  obtain ⟨hfull, htwice⟩ := binade_le_significand hexponent
  have hm : significand rank = binade := by
    rw [binade_zpow] at hless
    have hsteps : ((significand rank : ℚ) - stepsBelow rank / 4) < binade :=
      lt_of_mul_lt_mul_right (lt_of_le_of_lt hlow hless) hpow.le
    have hlt : (significand rank : ℚ) < binade + 1 := by linarith
    norm_cast at hlt
    omega
  have hpos := binade_pos
  exact ⟨hm, by rw [stepsBelow, if_pos ⟨hm, by omega⟩]⟩

theorem ofRatio_below (hden : 0 < den) (hrank : rank ≠ 0)
    (hx : (interval rank).Holds (num / den)) (hexponent : exponent rank ≠ -1074)
    (hless : (num : ℚ) / den < 2 ^ (exponent rank + 52)) :
    ofRatio negative num den = ofRank negative rank := by
  obtain ⟨hlow, -, -⟩ := bounds_of_holds hrank hx
  obtain ⟨hm, hsteps⟩ := steps_of_less hrank hx hexponent hless
  have hnum := num_ne_zero hrank hx
  have hbit := le_leadingBit_iff hnum hden
  -- in terms of the narrower steps
  obtain ⟨e, he⟩ : ∃ e, exponent rank = e + 1 := ⟨exponent rank - 1, by ring⟩
  have hnarrow : (2 : ℚ) ^ exponent rank = 2 * 2 ^ e := by
    rw [he, zpow_add_one₀ two_ne_zero, mul_comm]
  have hpow' : (0 : ℚ) < 2 ^ e := zpow_pos two_pos _
  have hone : (1 : ℚ) ≤ binade := by exact_mod_cast binade_pos
  rw [hm, hsteps, hnarrow] at hlow
  have hlow' : (((2 * binade : Nat) : ℚ) - 1 / 2) * 2 ^ e ≤ num / den := by
    refine le_trans (le_of_eq ?_) hlow
    push_cast
    ring
  have hless' : (num : ℚ) / den < (2 * binade : Nat) * 2 ^ e := by
    refine lt_of_lt_of_eq hless ?_
    rw [binade_zpow, hnarrow]
    push_cast
    ring
  have hfirst : e + 52 ≤ leadingBit num den := by
    rw [hbit, binade_zpow]
    refine le_trans (mul_le_mul_of_nonneg_right ?_ hpow'.le) hlow'
    push_cast
    linarith
  have hlast : ¬exponent rank + 52 ≤ leadingBit num den := by
    rw [hbit]
    exact not_le.mpr hless
  have hmin := le_exponent rank
  have hsteps := steps_eq hden hlow'
    (hless'.le.trans (mul_le_mul_of_nonneg_right (by linarith) hpow'.le))
    fun _ => Nat.mul_mod_right 2 binade
  rw [ofRatio_steps negative hnum (by omega) hsteps]
  congr 1
  have hrankeq := rank_eq rank
  rw [hm, he, show (e + 1 + 1074).toNat = (e + 1074).toNat + 1 by omega, Nat.succ_mul] at hrankeq
  omega

theorem ofRatio_eq (hden : 0 < den) (hrank : rank ≠ 0) (hx : (interval rank).Holds (num / den)) :
    ofRatio negative num den = ofRank negative rank := by
  by_cases hreach : exponent rank = -1074 ∨ (2 : ℚ) ^ (exponent rank + 52) ≤ num / den
  · exact ofRatio_reached negative hden hrank hx hreach
  · rw [not_or, not_le] at hreach
    exact ofRatio_below negative hden hrank hx hreach.1 hreach.2

end Rounded

/-! ## Decimal numbers -/

theorem ten_zpow_digits {n : Nat} (hn : n ≠ 0) :
    (10 : ℚ) ^ ((Nat.toDigits 10 n).length - 1 : Int) ≤ n ∧
      (n : ℚ) < 10 ^ ((Nat.toDigits 10 n).length : Int) := by
  obtain ⟨k, hk⟩ : ∃ k, (Nat.toDigits 10 n).length = k + 1 :=
    Nat.exists_eq_add_one.mpr Nat.length_toDigits_pos
  have hhigh : n < 10 ^ (k + 1) :=
    (Nat.length_toDigits_le_iff (by decide) (Nat.succ_pos k)).mp hk.le
  have hlow : 10 ^ k ≤ n := by
    cases k with
    | zero => exact Nat.pos_of_ne_zero hn
    | succ k =>
      rw [← not_lt, ← Nat.length_toDigits_le_iff (by decide) (Nat.succ_pos k), hk]
      omega
  rw [hk, Nat.cast_succ, add_sub_cancel_right, ← Nat.cast_succ, zpow_natCast, zpow_natCast]
  exact ⟨by exact_mod_cast hlow, by exact_mod_cast hhigh⟩

theorem exponent_le {rank : Nat} (h : rank < overflow) : exponent rank ≤ 971 := by
  have hdiv : rank / binade < 2047 := (Nat.div_lt_iff_lt_mul binade_pos).mpr h
  unfold exponent
  split <;> omega

theorem two_pow_lt_ten_pow : (2 : ℚ) ^ 1075 < 10 ^ 400 := by
  have h : 2 ^ 1075 < 10 ^ 400 := by decide +kernel
  exact_mod_cast h

theorem size_of_holds {rank : Nat} (hrank : rank ≠ 0) (h : rank < overflow) {x : ℚ}
    (hx : (interval rank).Holds x) : (10 : ℚ) ^ (-400 : Int) ≤ x ∧ x < 10 ^ (400 : Int) := by
  obtain ⟨hlow, hhigh, -⟩ := bounds_of_holds hrank hx
  have hbelow := stepsBelow_le rank
  have hone : (1 : ℚ) ≤ significand rank := by exact_mod_cast significand_pos hrank
  have hlt : (significand rank : ℚ) + 1 ≤ 2 ^ 53 := by
    have := significand_lt rank
    rw [binade, twoTo] at this
    exact_mod_cast this
  -- steps are 2 ^ (-1074) at least, and 2 ^ 971 at most
  constructor
  · have hleast : (10 : ℚ) ^ (-400 : Int) ≤ 1 / 2 * 2 ^ (-1074 : Int) := by
      rw [zpow_neg, zpow_neg, one_div, ← mul_inv, inv_le_inv₀ (by positivity) (by positivity),
        zpow_ofNat, zpow_ofNat, ← pow_succ']
      exact two_pow_lt_ten_pow.le
    calc (10 : ℚ) ^ (-400 : Int) ≤ 1 / 2 * 2 ^ (-1074 : Int) := hleast
      _ ≤ 1 / 2 * 2 ^ exponent rank := by
        gcongr
        · exact one_le_two
        · exact le_exponent rank
      _ ≤ (significand rank - stepsBelow rank / 4) * 2 ^ exponent rank :=
        mul_le_mul_of_nonneg_right (by linarith) (zpow_pos two_pos _).le
      _ ≤ x := hlow
  · have hgreatest : (2 : ℚ) ^ 53 * 2 ^ (971 : Int) < 10 ^ (400 : Int) := by
      refine lt_trans ?_ two_pow_lt_ten_pow
      rw [zpow_ofNat, ← pow_add]
      exact pow_lt_pow_right₀ one_lt_two (by norm_num)
    calc x ≤ (significand rank + 1 / 2) * 2 ^ exponent rank := hhigh
      _ ≤ 2 ^ 53 * 2 ^ exponent rank :=
        mul_le_mul_of_nonneg_right (by linarith) (zpow_pos two_pos _).le
      _ ≤ 2 ^ 53 * 2 ^ (971 : Int) := by
        gcongr
        · exact one_le_two
        · exact exponent_le h
      _ < 10 ^ (400 : Int) := hgreatest

theorem ofDecimal_eq (negative : Bool) {n rank : Nat} {power : Int} (hrank : rank ≠ 0)
    (h : rank < overflow) (hx : (interval rank).Holds (n * 10 ^ power)) :
    ofDecimal negative n power = .finite negative ⟨rank, h⟩ := by
  have hn : n ≠ 0 := by
    rintro rfl
    have hpos := pos_of_holds hrank hx
    rw [Nat.cast_zero, zero_mul] at hpos
    exact lt_irrefl _ hpos
  obtain ⟨hsmall, hlarge⟩ := size_of_holds hrank h hx
  obtain ⟨hlow, hhigh⟩ := ten_zpow_digits hn
  have hpow : (0 : ℚ) < 10 ^ power := zpow_pos (by norm_num) power
  have hmono (a b : Int) : (10 : ℚ) ^ a < 10 ^ b → a < b :=
    (zpow_lt_zpow_iff_right₀ (by norm_num)).mp
  have hten : (10 : ℚ) ≠ 0 := by norm_num
  have hsize : ((Nat.toDigits 10 n).length : Int) - 1 + power < 400 := by
    apply hmono
    rw [zpow_add₀ hten]
    exact lt_of_le_of_lt (mul_le_mul_of_nonneg_right hlow hpow.le) hlarge
  have hsize' : -400 < ((Nat.toDigits 10 n).length : Int) + power := by
    apply hmono
    rw [zpow_add₀ hten]
    exact lt_of_le_of_lt hsmall (mul_lt_mul_of_pos_right hhigh hpow)
  have hquotient : ((n * tenTo power.toNat : Nat) : ℚ) / tenTo (-power).toNat = n * 10 ^ power := by
    rw [Nat.cast_mul, mul_div_assoc, tenTo_div]
  rw [ofDecimal, if_neg hn, if_neg (by omega), if_neg (by omega),
    ofRatio_eq negative (tenTo_pos _) hrank (by rwa [hquotient])]
  exact dif_pos h

end Binary64

end Detection
