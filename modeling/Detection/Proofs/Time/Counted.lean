import Detection.Proofs.Time.Calendar
import Detection.Wire

/-! # Times given as a count of nanoseconds

A count stands for the microsecond it falls in, in universal time. The counts of the years 1 to 9999 are
taken and all others are refused.
-/

namespace Detection

/-! ## Times of day -/

namespace Clock

theorem toMicros_lt (c : Clock) : c.toMicros < 86400000000 := by
  have := c.hour_lt
  have := c.minute_lt
  have := c.second_lt
  have := c.micro_lt
  unfold toMicros
  omega

theorem toMicros_lt_iff {c c' : Clock} : c.toMicros < c'.toMicros ↔
    [c.hour, c.minute, c.second, c.micro] < [c'.hour, c'.minute, c'.second, c'.micro] := by
  have := c.minute_lt
  have := c'.minute_lt
  have := c.second_lt
  have := c'.second_lt
  have := c.micro_lt
  have := c'.micro_lt
  simp only [toMicros, List.cons_lt_cons_iff, List.not_lt_nil, and_false, or_false]
  omega

theorem toMicros_ofMicros {n : Nat} (h : n < 86400000000) : (ofMicros n).toMicros = n := by
  have hminutes : n / 60000000 = n / 1000000 / 60 := by rw [Nat.div_div_eq_div_mul]
  have hhours : n / 3600000000 = n / 1000000 / 60 / 60 := by
    rw [Nat.div_div_eq_div_mul, Nat.div_div_eq_div_mul]
  simp only [toMicros, ofMicros, hminutes, hhours]
  omega

theorem toMicros_injective {c c' : Clock} (h : c.toMicros = c'.toMicros) : c = c' := by
  have hlt := @toMicros_lt_iff c c'
  have hgt := @toMicros_lt_iff c' c
  simp only [h, List.cons_lt_cons_iff, List.not_lt_nil, and_false, or_false] at hlt hgt
  cases c
  cases c'
  simp only [mk.injEq] at *
  omega

end Clock

namespace Timestamp

/-! ## The order of times -/

/-- The microseconds from the start of 1970 to a time, both in universal time. -/
def sinceEpoch (t : Timestamp) : Int :=
  ((t.date.toDay : Int) - epochDay) * 86400000000 + t.clock.toMicros -
    (t.offset.getD .utc).micros

def fields (t : Timestamp) : List Nat :=
  [t.date.year, t.date.month, t.date.day, t.clock.hour, t.clock.minute, t.clock.second,
    t.clock.micro]

section

variable {t t' : Timestamp} (h : t.offset = t'.offset)

include h

theorem sinceEpoch_lt_iff : t.sinceEpoch < t'.sinceEpoch ↔ t.fields < t'.fields := by
  have hclock := t.clock.toMicros_lt
  have hclock' := t'.clock.toMicros_lt
  have hdays := @Date.toDay_lt_iff t.date t'.date
  have hdays' := @Date.toDay_lt_iff t'.date t.date
  have htimes := @Clock.toMicros_lt_iff t.clock t'.clock
  simp only [sinceEpoch, fields, h, List.cons_lt_cons_iff, List.not_lt_nil, and_false, or_false]
    at hdays hdays' htimes ⊢
  omega

theorem sinceEpoch_injective (heq : t.sinceEpoch = t'.sinceEpoch) : t = t' := by
  have hclock := t.clock.toMicros_lt
  have hclock' := t'.clock.toMicros_lt
  rw [sinceEpoch, sinceEpoch, h] at heq
  have hdate : t.date = t'.date := Date.toDay_injective (by omega)
  have hmicros : t.clock.toMicros = t'.clock.toMicros := by omega
  cases t
  cases t'
  simp only [mk.injEq]
  exact ⟨hdate, Clock.toMicros_injective hmicros, h⟩

end

/-! ## Counts -/

/-- The second a count of nanoseconds falls in is one of the years 1 to 9999. -/
def InYears (nanos : Int) : Prop :=
  -62135596800 ≤ nanos.fdiv 1000000000 ∧ nanos.fdiv 1000000000 ≤ 253402300799

/-- The day a count falls in, day 0 being the first of year 1. -/
def dayOf (nanos : Int) : Int := (nanos.fdiv 1000000000).fdiv 86400 + epochDay

/-- The microseconds of this day that are over. -/
def restOf (nanos : Int) : Nat :=
  ((nanos.fdiv 1000000000).fmod 86400).toNat * 1000000 + (nanos.fmod 1000000000).toNat / 1000

section

variable (nanos : Int)

theorem inYears_iff_dayOf :
    InYears nanos ↔ 0 ≤ dayOf nanos ∧ dayOf nanos < Calendar.daysBefore 9999 := by
  have hlast : Calendar.daysBefore 9999 = 3652059 := rfl
  rw [InYears, dayOf, hlast, Int.fdiv_eq_ediv_of_nonneg _ (by decide : (0 : Int) ≤ 86400)]
  unfold epochDay
  omega

theorem inYears_iff_year :
    InYears nanos ↔ 1 ≤ Calendar.signedYearOfDay (dayOf nanos) ∧
      Calendar.signedYearOfDay (dayOf nanos) ≤ 9999 := by
  rw [inYears_iff_dayOf, Calendar.signedYearOfDay_range]

theorem restOf_lt : restOf nanos < 86400000000 := by
  unfold restOf
  rw [Int.fmod_eq_emod_of_nonneg _ (by decide), Int.fmod_eq_emod_of_nonneg _ (by decide)]
  omega

/-- Days and microseconds add up to the count, less the nanoseconds that are left. -/
theorem dayOf_add_restOf :
    (dayOf nanos - epochDay) * 86400000000 + restOf nanos = nanos.fdiv 1000 := by
  unfold dayOf restOf
  simp (disch := decide) only [Int.fdiv_eq_ediv_of_nonneg, Int.fmod_eq_emod_of_nonneg]
  omega

end

theorem ofNanos_inYears {nanos : Int} (h : InYears nanos) :
    ∃ date, date.toDay = dayOf nanos ∧
      ofNanos nanos = .ok ⟨date, .ofMicros (restOf nanos), some .utc⟩ := by
  have hyear := (inYears_iff_year nanos).mp h
  have hday := (inYears_iff_dayOf nanos).mp h
  obtain ⟨date, hdate, hcounted⟩ := Date.exists_ofDay (show (dayOf nanos).toNat < _ by omega)
  refine ⟨date, by omega, ?_⟩
  unfold InYears at h
  have hseconds : Int.bmod (nanos.fdiv 1000000000) 0x10000000000000000 = nanos.fdiv 1000000000 :=
    Int.bmod_eq_of_le (by omega) (by omega)
  have hfield : Int.bmod (Calendar.signedYearOfDay (dayOf nanos) - 1900) 0x100000000 =
      Calendar.signedYearOfDay (dayOf nanos) - 1900 := Int.bmod_eq_of_le (by omega) (by omega)
  have hcalendar : (Calendar.signedYearOfDay (dayOf nanos) < 1 ||
      9999 < Calendar.signedYearOfDay (dayOf nanos)) = false := by
    simp only [Bool.or_eq_false_iff, decide_eq_false_iff_not]
    omega
  rw [dayOf] at hfield hcalendar hdate
  simp only [ofNanos, hseconds, hfield, hcalendar, hdate, ne_eq, not_true_eq_false, if_false,
    Bool.false_eq_true]
  rfl

theorem ofNanos_notInYears {nanos : Int} (h : ¬ InYears nanos) :
    ∃ cause, ofNanos nanos = .error cause := by
  rw [inYears_iff_year] at h
  have hcalendar : (Calendar.signedYearOfDay (dayOf nanos) < 1 ||
      9999 < Calendar.signedYearOfDay (dayOf nanos)) = true := by
    simp only [Bool.or_eq_true, decide_eq_true_eq]
    omega
  rw [dayOf] at hcalendar
  unfold ofNanos
  simp only [if_pos hcalendar]
  split
  · exact ⟨_, rfl⟩
  · split
    · exact ⟨_, rfl⟩
    · exact ⟨_, rfl⟩

theorem time_int (nanos : Int) (t : Timestamp) :
    Wire.time (.int nanos) = .ok (.time t) ↔ ofNanos nanos = .ok t := by
  unfold Wire.time
  simp only
  cases ofNanos nanos <;> simp

theorem ofNanos_ok_iff {nanos : Int} {t : Timestamp} : ofNanos nanos = .ok t ↔
    InYears nanos ∧ t.offset = some .utc ∧ t.sinceEpoch = nanos.fdiv 1000 := by
  have hread (h : InYears nanos) : ∃ t, ofNanos nanos = .ok t ∧ t.offset = some .utc ∧
      t.sinceEpoch = nanos.fdiv 1000 := by
    obtain ⟨date, hdate, hread⟩ := ofNanos_inYears h
    refine ⟨_, hread, rfl, ?_⟩
    have hadd := dayOf_add_restOf nanos
    rw [sinceEpoch, hdate, Clock.toMicros_ofMicros (restOf_lt nanos)]
    simp only [Option.getD_some, show Offset.utc.micros = 0 from rfl]
    omega
  constructor
  · intro ht
    by_cases hin : InYears nanos
    · obtain ⟨t', ht', hoffset, hcount⟩ := hread hin
      obtain rfl := Except.ok.inj (ht'.symm.trans ht)
      exact ⟨hin, hoffset, hcount⟩
    · obtain ⟨cause, herror⟩ := ofNanos_notInYears hin
      rw [herror] at ht
      cases ht
  · rintro ⟨hin, hoffset, hcount⟩
    obtain ⟨t', ht', hoffset', hcount'⟩ := hread hin
    rw [ht', sinceEpoch_injective (hoffset.trans hoffset'.symm) (hcount.trans hcount'.symm)]

/-- A count of nanoseconds is read as the one time in universal time that is as many whole microseconds
from the start of 1970, rounded down, where its second is one of the years 1 to 9999. Any other count is
refused. A higher count is read as no earlier time. -/
theorem time_of_count (n : Int) :
    (∀ t, Wire.time (.int n) = .ok (.time t) ↔
      InYears n ∧ t.offset = some .utc ∧ t.sinceEpoch = n.fdiv 1000) ∧
    (InYears n → ∃ t, Wire.time (.int n) = .ok (.time t)) ∧
    (¬ InYears n → ∃ cause, Wire.time (.int n) = .error (.count cause)) ∧
    ∀ t, Wire.time (.int n) = .ok (.time t) →
      t.sinceEpoch * 1000 ≤ n ∧ n < (t.sinceEpoch + 1) * 1000 ∧
      ∀ m t', n ≤ m → Wire.time (.int m) = .ok (.time t') →
        t.sinceEpoch ≤ t'.sinceEpoch ∧ ¬ t'.fields < t.fields := by
  simp only [time_int]
  refine ⟨fun t => ofNanos_ok_iff, fun hin => ?_, fun hout => ?_, fun t ht => ?_⟩
  · obtain ⟨date, -, hread⟩ := ofNanos_inYears hin
    exact ⟨_, hread⟩
  · obtain ⟨cause, herror⟩ := ofNanos_notInYears hout
    refine ⟨cause, ?_⟩
    simp only [Wire.time, herror]
  · obtain ⟨-, hoffset, hcount⟩ := ofNanos_ok_iff.mp ht
    rw [Int.fdiv_eq_ediv_of_nonneg _ (by decide)] at hcount
    refine ⟨by omega, by omega, fun m t' hle ht' => ?_⟩
    obtain ⟨-, hoffset', hcount'⟩ := ofNanos_ok_iff.mp ht'
    rw [Int.fdiv_eq_ediv_of_nonneg _ (by decide)] at hcount'
    have horder : t.sinceEpoch ≤ t'.sinceEpoch := by omega
    rw [← sinceEpoch_lt_iff (hoffset'.trans hoffset.symm)]
    exact ⟨horder, by omega⟩

example : (ofNanos (-1)).toOption.map fields = some [1969, 12, 31, 23, 59, 59, 999999] := by
  decide +kernel

example : (ofNanos 253402300799999999999).toOption.map fields =
    some [9999, 12, 31, 23, 59, 59, 999999] := by
  decide +kernel

end Timestamp

end Detection
