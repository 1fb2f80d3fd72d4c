import Detection.Proofs.Decimal.Shortest

/-! # Whole numbers among the floating ones

A number that is equal to a whole number is what this whole number rounds to. So two numbers that
are equal to the same whole number are one, or both are zero.
-/

namespace Detection.Binary64

variable {x y : Binary64} {n : Int}

theorem holds_self {rank : Nat} (h : rank ≠ 0) :
    (interval rank).Holds (significand rank * 2 ^ exponent rank) := by
  have hpow : (0 : ℚ) < 2 ^ exponent rank := zpow_pos two_pos _
  have hsteps : (0 : ℚ) < stepsBelow rank := by
    unfold stepsBelow
    split <;> norm_num
  apply holds_of_near h
  · exact mul_lt_mul_of_pos_right (by linarith) hpow
  · exact mul_lt_mul_of_pos_right (by linarith) hpow

theorem toInt?_finite {negative : Bool} {rank : Fin overflow}
    (h : (finite negative rank).toInt? = some n) :
    ∃ size : Nat, n = (if negative then -(size : Int) else size) ∧
      (size : ℚ) = significand rank * 2 ^ exponent rank := by
  unfold toInt? at h
  simp only at h
  split at h
  · rename_i hwhole
    refine ⟨_, (Option.some.inj h).symm, ?_⟩
    have hden : (twoTo (-exponent rank).toNat : ℚ) ≠ 0 := Nat.cast_ne_zero.mpr (twoTo_pos _).ne'
    rw [← twoTo_div, ← mul_div_assoc, eq_div_iff hden]
    exact_mod_cast Nat.div_mul_cancel (Nat.dvd_of_mod_eq_zero hwhole)
  · cases h

theorem toInt?_eq_zero_iff : x.toInt? = some 0 ↔ x.isZero = true := by
  cases x with
  | nan => exact ⟨nofun, nofun⟩
  | infinity negative => exact ⟨nofun, nofun⟩
  | finite negative rank =>
    have hzero : (finite negative rank).isZero = true ↔ rank.val = 0 := decide_eq_true_iff
    rw [hzero]
    constructor
    · intro h
      obtain ⟨size, hsign, hsize⟩ := toInt?_finite h
      have hnone : size = 0 := by
        split at hsign <;> omega
      have hpow : (2 : ℚ) ^ exponent rank ≠ 0 := (zpow_pos two_pos _).ne'
      rw [hnone, Nat.cast_zero, eq_comm, mul_eq_zero, or_iff_left hpow, Nat.cast_eq_zero] at hsize
      by_contra hrank
      exact absurd hsize (significand_pos hrank).ne'
    · intro hrank
      have hsignificand : significand 0 = 0 := if_pos binade_pos
      simp [toInt?, hrank, hsignificand]

theorem ofInt_of_toInt? (h : x.toInt? = some n) (hn : n ≠ 0) : ofInt n = x := by
  cases x with
  | nan => cases h
  | infinity negative => cases h
  | finite negative rank =>
    have hrank : rank.val ≠ 0 := by
      intro hrank
      have hzero : (finite negative rank).toInt? = some 0 :=
        toInt?_eq_zero_iff.mpr (decide_eq_true hrank)
      rw [h] at hzero
      exact hn (Option.some.inj hzero)
    obtain ⟨size, rfl, hsize⟩ := toInt?_finite h
    have hholds : (interval rank).Holds ((size : ℚ) / (1 : Nat)) := by
      rw [Nat.cast_one, div_one, hsize]
      exact holds_self hrank
    have hnegative : decide ((if negative then -(size : Int) else size) < 0) = negative := by
      cases negative
      · simp
      · have hpos : size ≠ 0 := num_ne_zero hrank hholds
        rw [if_pos rfl, decide_eq_true_eq]
        omega
    have habs : (if negative then -(size : Int) else size).natAbs = size := by
      split <;> omega
    rw [ofInt, hnegative, habs, ofRatio_eq negative Nat.one_pos hrank hholds]
    exact dif_pos rank.isLt

theorem eq_of_toInt? (hx : x.toInt? = some n) (hy : y.toInt? = some n) :
    x = y ∨ x.isZero = true ∧ y.isZero = true := by
  by_cases hn : n = 0
  · subst hn
    exact .inr ⟨toInt?_eq_zero_iff.mp hx, toInt?_eq_zero_iff.mp hy⟩
  · exact .inl ((ofInt_of_toInt? hx hn).symm.trans (ofInt_of_toInt? hy hn))

end Detection.Binary64
