import Mathlib.Algebra.BigOperators.Group.List.Basic
import Mathlib.Algebra.GroupWithZero.Nat
import Mathlib.Data.List.GetD
import Detection.Proofs.Success
import Detection.Time.Timestamp

/-! # Days counted through the calendar

The days from the first of year 1 to the last of year 9999 are the dates in their order, each day one
date.
-/

namespace Detection

namespace Calendar

/-! ## Years -/

def yearLength (year : Nat) : Nat := (monthLengths (isLeap year)).sum

theorem isLeap_iff (year : Nat) : isLeap year = true ↔ 4 ∣ year ∧ (¬ 100 ∣ year ∨ 400 ∣ year) := by
  simp [isLeap, Nat.dvd_iff_mod_eq_zero]

theorem yearLength_eq (year : Nat) :
    yearLength year = if 4 ∣ year ∧ (¬ 100 ∣ year ∨ 400 ∣ year) then 366 else 365 := by
  simp only [← isLeap_iff]
  unfold yearLength
  cases isLeap year <;> rfl

theorem centuries_le (years : Nat) : years / 100 ≤ years / 4 :=
  Nat.div_le_div_left (by decide) (by decide)

theorem daysBefore_succ (years : Nat) :
    daysBefore (years + 1) = daysBefore years + yearLength (years + 1) := by
  have hcenturies := centuries_le years
  simp only [yearLength_eq, daysBefore, Nat.succ_div]
  by_cases h400 : 400 ∣ years + 1
  · have h100 : 100 ∣ years + 1 := Nat.dvd_trans (by decide) h400
    have h4 : 4 ∣ years + 1 := Nat.dvd_trans (by decide) h400
    simp only [h4, h100, h400, if_true, not_true_eq_false, or_true, and_self]
    omega
  · by_cases h100 : 100 ∣ years + 1
    · have h4 : 4 ∣ years + 1 := Nat.dvd_trans (by decide) h100
      simp only [h4, h100, h400, if_true, if_false, not_true_eq_false, or_self, and_false]
      omega
    · simp only [h100, h400, if_false, not_false_eq_true, or_false, and_true]
      split <;> omega

theorem daysBefore_year {year : Nat} (h : 1 ≤ year) :
    daysBefore year = daysBefore (year - 1) + yearLength year := by
  obtain ⟨years, rfl⟩ : ∃ years, year = years + 1 := ⟨year - 1, by omega⟩
  exact daysBefore_succ years

theorem daysBefore_mono {years years' : Nat} (h : years ≤ years') :
    daysBefore years ≤ daysBefore years' := by
  induction h with
  | refl => exact Nat.le_refl _
  | step _ ih =>
    rw [daysBefore_succ]
    omega

theorem daysBefore_bounds (years : Nat) :
    365 * years ≤ daysBefore years ∧ daysBefore years ≤ 365 * years + years / 4 := by
  have hcenturies := centuries_le years
  have hcycles : years / 400 ≤ years / 100 := Nat.div_le_div_left (by decide) (by decide)
  unfold daysBefore
  omega

theorem daysBefore_cycles (cycles years : Nat) :
    daysBefore (400 * cycles + years) = cycle * cycles + daysBefore years := by
  have hcenturies := centuries_le years
  have h4 : (400 * cycles + years) / 4 = 100 * cycles + years / 4 := by omega
  have h100 : (400 * cycles + years) / 100 = 4 * cycles + years / 100 := by omega
  have h400 : (400 * cycles + years) / 400 = cycles + years / 400 := by omega
  unfold daysBefore cycle
  rw [h4, h100, h400]
  omega

/-- The year guessed within a cycle is the right one or the next. -/
theorem guess_spec {r : Nat} (h : r < cycle) :
    let guess := r / 365
    let years := if daysBefore guess ≤ r then guess else guess - 1
    daysBefore years ≤ r ∧ r < daysBefore (years + 1) := by
  unfold cycle at h
  simp only
  have hlow := daysBefore_bounds (r / 365 - 1)
  have hhigh := daysBefore_bounds (r / 365 + 1)
  split
  · omega
  · rename_i hguess
    have hpos : r / 365 ≠ 0 := by
      intro hzero
      rw [hzero] at hguess
      exact hguess (Nat.zero_le _)
    rw [Nat.sub_add_cancel (Nat.pos_of_ne_zero hpos)]
    omega

theorem yearOfDay_spec (n : Nat) :
    1 ≤ yearOfDay n ∧ daysBefore (yearOfDay n - 1) ≤ n ∧ n < daysBefore (yearOfDay n) := by
  have hcycle := Nat.div_add_mod n cycle
  obtain ⟨hlow, hhigh⟩ := guess_spec (Nat.mod_lt n (show 0 < cycle by decide))
  rw [yearOfDay]
  generalize (if daysBefore (n % cycle / 365) ≤ n % cycle then n % cycle / 365
    else n % cycle / 365 - 1) = years at hlow hhigh ⊢
  rw [Nat.add_sub_cancel, Nat.add_assoc, daysBefore_cycles, daysBefore_cycles]
  omega

theorem yearOfDay_unique {n year : Nat} (hpos : 1 ≤ year) (hlow : daysBefore (year - 1) ≤ n)
    (hhigh : n < daysBefore year) : yearOfDay n = year := by
  obtain ⟨hpos', hlow', hhigh'⟩ := yearOfDay_spec n
  apply Nat.le_antisymm
  · apply Nat.le_of_not_lt
    intro hlt
    have := daysBefore_mono (show year ≤ yearOfDay n - 1 by omega)
    omega
  · apply Nat.le_of_not_lt
    intro hlt
    have := daysBefore_mono (show yearOfDay n ≤ year - 1 by omega)
    omega

theorem yearOfDay_le_iff {n year : Nat} : yearOfDay n ≤ year ↔ n < daysBefore year := by
  obtain ⟨hpos, hlow, hhigh⟩ := yearOfDay_spec n
  constructor
  · intro hle
    have := daysBefore_mono hle
    omega
  · intro hlt
    apply Nat.le_of_not_lt
    intro hgt
    have := daysBefore_mono (show year ≤ yearOfDay n - 1 by omega)
    omega

theorem signedYearOfDay_neg {n : Int} (h : n < 0) : signedYearOfDay n < 1 := by
  have hrest : (n.fmod cycle).toNat < cycle := by
    rw [Int.fmod_eq_emod_of_nonneg _ (by decide)]
    unfold cycle
    omega
  have hyear : yearOfDay (n.fmod cycle).toNat ≤ 400 := yearOfDay_le_iff.mpr hrest
  rw [signedYearOfDay, Int.fdiv_eq_ediv_of_nonneg _ (by decide)]
  unfold cycle at *
  omega

theorem yearOfDay_mod (n : Nat) : yearOfDay n = 400 * (n / cycle) + yearOfDay (n % cycle) := by
  have hdiv : n % cycle / cycle = 0 := Nat.div_eq_of_lt (Nat.mod_lt _ (by decide))
  simp only [yearOfDay, Nat.mod_mod, hdiv]
  omega

theorem signedYearOfDay_ofNat (n : Nat) : signedYearOfDay n = yearOfDay n := by
  have hdiv : (n : Int).fdiv cycle = (n / cycle : Nat) := by
    rw [Int.fdiv_eq_ediv_of_nonneg _ (by decide)]
    rfl
  have hmod : ((n : Int).fmod cycle).toNat = n % cycle := by
    rw [Int.fmod_eq_emod_of_nonneg _ (by decide)]
    rfl
  rw [signedYearOfDay, hdiv, hmod, yearOfDay_mod n]
  omega

/-- Just the days from the first of year 1 to the last of year 9999 have one of these years. -/
theorem signedYearOfDay_range (n : Int) :
    1 ≤ signedYearOfDay n ∧ signedYearOfDay n ≤ 9999 ↔ 0 ≤ n ∧ n < daysBefore 9999 := by
  by_cases hneg : n < 0
  · have := signedYearOfDay_neg hneg
    omega
  · obtain ⟨day, rfl⟩ := Int.eq_ofNat_of_zero_le (show 0 ≤ n by omega)
    have hpos := (yearOfDay_spec day).1
    have hle := @yearOfDay_le_iff day 9999
    rw [signedYearOfDay_ofNat]
    omega

/-! ## Months -/

theorem locate_spec {lengths : List Nat} {n : Nat} (h : n < lengths.sum) :
    ∃ month day, locate lengths n = (month + 1, day + 1) ∧ month < lengths.length ∧
      day < lengths.getD month 0 ∧ (lengths.take month).sum + day = n := by
  induction lengths generalizing n with
  | nil => simp at h
  | cons length lengths ih =>
    rw [List.sum_cons] at h
    by_cases hn : n < length
    · refine ⟨0, n, ?_, Nat.succ_pos _, hn, by simp⟩
      rw [locate, if_pos hn]
    · obtain ⟨month, day, hlocate, hmonth, hday, hcount⟩ := ih (n := n - length) (by omega)
      refine ⟨month + 1, day, ?_, Nat.succ_lt_succ hmonth, hday, ?_⟩
      · rw [locate, if_neg hn, hlocate]
      · rw [List.take_succ_cons, List.sum_cons]
        omega

theorem locate_unique {lengths : List Nat} {month day : Nat} (hmonth : month < lengths.length)
    (hday : day < lengths.getD month 0) :
    locate lengths ((lengths.take month).sum + day) = (month + 1, day + 1) := by
  induction lengths generalizing month with
  | nil => simp at hmonth
  | cons length lengths ih =>
    match month with
    | 0 =>
      rw [List.take_zero, List.sum_nil, Nat.zero_add, locate]
      exact if_pos hday
    | month + 1 =>
      have hrest := ih (Nat.lt_of_succ_lt_succ hmonth) hday
      rw [List.take_succ_cons, List.sum_cons, locate, if_neg (by omega), Nat.add_assoc,
        Nat.add_sub_cancel_left, hrest]

end Calendar

namespace Date

open Calendar

/-! ## Dates -/

theorem toDay_eq (d : Date) :
    d.toDay = daysBefore (d.year - 1) +
      (((monthLengths (isLeap d.year)).take (d.month - 1)).sum + (d.day - 1)) := by
  rw [toDay, ← List.sum_eq_foldl, Nat.add_assoc]

theorem month_lt (d : Date) : d.month - 1 < (monthLengths (isLeap d.year)).length := by
  have hmonth := d.month_valid
  have hlength : (monthLengths (isLeap d.year)).length = 12 := rfl
  omega

theorem day_lt (d : Date) :
    d.day - 1 < (monthLengths (isLeap d.year)).getD (d.month - 1) 0 := by
  have hday := d.day_valid
  rw [daysInMonth] at hday
  omega

theorem toDay_bounds (d : Date) :
    daysBefore (d.year - 1) ≤ d.toDay ∧ d.toDay < daysBefore d.year := by
  have hday := d.day_lt
  rw [List.getD_eq_getElem _ _ d.month_lt] at hday
  have hmonths := List.sum_take_succ _ _ d.month_lt
  have hyear := congrArg List.sum
    (List.take_append_drop (d.month - 1 + 1) (monthLengths (isLeap d.year)))
  rw [List.sum_append] at hyear
  rw [toDay_eq, daysBefore_year d.year_valid.1, yearLength]
  omega

theorem yearOfDay_toDay (d : Date) : yearOfDay d.toDay = d.year :=
  yearOfDay_unique d.year_valid.1 d.toDay_bounds.1 d.toDay_bounds.2

theorem ofDay_toDay (d : Date) : ofDay d.toDay = .ok d := by
  have hmonth := d.month_valid
  have hday := d.day_valid
  have hlocate := locate_unique d.month_lt d.day_lt
  have hfields : fieldsOfDay d.toDay = (d.year, d.month, d.day) := by
    rw [fieldsOfDay, yearOfDay_toDay, toDay_eq, Nat.add_sub_cancel_left]
    simp only [hlocate, Nat.sub_add_cancel hmonth.1, Nat.sub_add_cancel hday.1]
  rw [ofDay, hfields]
  simp only [ofFields, dif_pos d.year_valid, dif_pos d.month_valid, dif_pos d.day_valid]

theorem toDay_injective {d d' : Date} (h : d.toDay = d'.toDay) : d = d' := by
  have heq := ofDay_toDay d
  rw [h, ofDay_toDay] at heq
  exact (Except.ok.inj heq).symm

theorem exists_ofDay {n : Nat} (h : n < daysBefore 9999) : ∃ d, ofDay n = .ok d ∧ d.toDay = n := by
  obtain ⟨hpos, hlow, hhigh⟩ := yearOfDay_spec n
  have hyears : yearOfDay n ≤ 9999 := yearOfDay_le_iff.mpr h
  have hyear := daysBefore_year hpos
  have hrest : n - daysBefore (yearOfDay n - 1) < (monthLengths (isLeap (yearOfDay n))).sum := by
    rw [yearLength] at hyear
    omega
  obtain ⟨month, day, hlocate, hmonth, hday, hcount⟩ := locate_spec hrest
  have hdate : ∃ d : Date, d.year = yearOfDay n ∧ d.month = month + 1 ∧ d.day = day + 1 :=
    ⟨⟨yearOfDay n, month + 1, day + 1, ⟨hpos, hyears⟩, ⟨by omega, hmonth⟩, ⟨by omega, hday⟩⟩,
      rfl, rfl, rfl⟩
  obtain ⟨d, hdyear, hdmonth, hdday⟩ := hdate
  have hcounted : d.toDay = n := by
    rw [toDay_eq, hdyear, hdmonth, hdday, Nat.add_sub_cancel, Nat.add_sub_cancel, hcount]
    omega
  exact ⟨d, hcounted ▸ ofDay_toDay d, hcounted⟩

theorem sum_take_lt {lengths : List Nat} {month month' day : Nat} (h : month < month')
    (hmonth : month < lengths.length) (hday : day < lengths.getD month 0) :
    (lengths.take month).sum + day < (lengths.take month').sum := by
  rw [List.getD_eq_getElem _ _ hmonth] at hday
  have hsplit := congrArg List.sum (List.take_append_drop (month + 1) (lengths.take month'))
  rw [List.take_take, Nat.min_eq_left h, List.sum_append, List.sum_take_succ _ _ hmonth] at hsplit
  omega

theorem eq_of_fields {d d' : Date} (hyear : d.year = d'.year) (hmonth : d.month = d'.month)
    (hday : d.day = d'.day) : d = d' := by
  cases d
  cases d'
  simp only [mk.injEq]
  exact ⟨hyear, hmonth, hday⟩

theorem toDay_lt {d d' : Date} (h : [d.year, d.month, d.day] < [d'.year, d'.month, d'.day]) :
    d.toDay < d'.toDay := by
  have hmonth := d.month_valid
  have hmonth' := d'.month_valid
  have hday := d.day_valid
  simp only [List.cons_lt_cons_iff, List.not_lt_nil, and_false, or_false] at h
  rcases h with hyear | ⟨hyear, hmonths | ⟨heq, hdays⟩⟩
  · have := daysBefore_mono (show d.year ≤ d'.year - 1 by omega)
    have := d.toDay_bounds
    have := d'.toDay_bounds
    omega
  · have hlater := sum_take_lt (show d.month - 1 < d'.month - 1 by omega) d.month_lt d.day_lt
    rw [toDay_eq, toDay_eq, ← hyear]
    omega
  · rw [toDay_eq, toDay_eq, ← hyear, ← heq]
    omega

theorem toDay_lt_iff {d d' : Date} :
    d.toDay < d'.toDay ↔ [d.year, d.month, d.day] < [d'.year, d'.month, d'.day] := by
  refine ⟨fun hlt => ?_, toDay_lt⟩
  apply Decidable.byContradiction
  intro hnot
  -- the other date comes first, or it is the same date
  by_cases hback : [d'.year, d'.month, d'.day] < [d.year, d.month, d.day]
  · have := toDay_lt hback
    omega
  · simp only [List.cons_lt_cons_iff, List.not_lt_nil, and_false, or_false] at hnot hback
    have heq : d = d' := eq_of_fields (by omega) (by omega) (by omega)
    rw [heq] at hlt
    omega

end Date

end Detection
