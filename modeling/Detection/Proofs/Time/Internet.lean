import Detection.Proofs.Time.Shown

/-! # Date-times of RFC 3339

A time is shown as one of them where its offset is a whole number of minutes. Seconds of an offset
are shown behind it, which the grammar has no place for.
-/

namespace Detection

open Json (Digits)
open Timestamp (padded)

/-! ## The grammar -/

namespace Internet

/-- A number between two bounds, in `width` decimal digits. -/
structure IsNumber (width low high : Nat) (cs : List Char) : Prop where
  length : cs.length = width
  digits : Digits cs
  low_le : low ≤ Nat.ofDigitChars 10 cs 0
  le_high : Nat.ofDigitChars 10 cs 0 ≤ high

/-- `YYYY-MM-DD`, of a day that the month has. -/
inductive IsDate : List Char → Prop where
  | mk {year month day : List Char} : IsNumber 4 0 9999 year → IsNumber 2 1 12 month →
      IsNumber 2 1 (Calendar.daysInMonth (Nat.ofDigitChars 10 year 0)
        (Nat.ofDigitChars 10 month 0)) day →
      IsDate (year ++ '-' :: month ++ '-' :: day)

/-- Nothing, or one to six digits behind a point. -/
inductive IsFraction : List Char → Prop where
  | absent : IsFraction []
  | digits {cs : List Char} : 1 ≤ cs.length → cs.length ≤ 6 → Digits cs → IsFraction ('.' :: cs)

/-- `Z`, `+HH:MM` or `-HH:MM`. -/
inductive IsZone : List Char → Prop where
  | utc : IsZone ['Z']
  | numeric {sign : Char} {hour minute : List Char} : sign = '+' ∨ sign = '-' →
      IsNumber 2 0 23 hour → IsNumber 2 0 59 minute → IsZone (sign :: hour ++ ':' :: minute)

/-- A date-time of RFC 3339 with what RFC 5424 asks of it: no leap second, and at most six digits of
a fraction. -/
inductive IsDateTime : List Char → Prop where
  | mk {date hour minute second fraction zone : List Char} : IsDate date →
      IsNumber 2 0 23 hour → IsNumber 2 0 59 minute → IsNumber 2 0 59 second →
      IsFraction fraction → IsZone zone →
      IsDateTime (date ++ 'T' :: (hour ++ ':' :: minute ++ ':' :: second ++ fraction) ++ zone)

/-! ## What the parts of a time are shown as -/

theorem isNumber_padded {width low high n : Nat} (hwidth : 0 < width) (hlow : low ≤ n)
    (hhigh : n ≤ high) (h : high < 10 ^ width) : IsNumber width low high (padded width n) where
  length := Timestamp.length_padded hwidth (Nat.lt_of_le_of_lt hhigh h)
  digits := Timestamp.digits_padded width n
  low_le := by rwa [Timestamp.value_padded]
  le_high := by rwa [Timestamp.value_padded]

theorem isDate_dateChars (d : Date) : IsDate (Timestamp.dateChars d) := by
  have hmonth := Calendar.daysInMonth_le d.year d.month
  refine .mk (isNumber_padded (by decide) (Nat.zero_le _) d.year_valid.2 (by decide))
    (isNumber_padded (by decide) d.month_valid.1 d.month_valid.2 (by decide)) ?_
  rw [Timestamp.value_padded, Timestamp.value_padded]
  exact isNumber_padded (by decide) d.day_valid.1 d.day_valid.2 (by omega)

theorem isFraction_fractionChars {micro : Nat} (h : micro < 1000000) :
    IsFraction (Timestamp.fractionChars micro) := by
  have hlength := Timestamp.length_padded (n := micro) (by decide : 0 < 6) h
  unfold Timestamp.fractionChars
  split
  · exact .absent
  · exact .digits (by omega) (by omega) (Timestamp.digits_padded 6 micro)

theorem isNumber_sixty {n : Nat} (h : n < 60) : IsNumber 2 0 59 (padded 2 n) :=
  isNumber_padded (by decide) (Nat.zero_le _) (by omega) (by decide)

theorem isDateTime_of_zone {t : Timestamp} {zone : List Char} (h : IsZone zone) :
    IsDateTime (({ t with offset := none } : Timestamp).chars ++ zone) := by
  have hhour := t.clock.hour_lt
  have hdate := isDate_dateChars t.date
  have hclock := isNumber_padded (by decide : 0 < 2) (Nat.zero_le _)
    (by omega : t.clock.hour ≤ 23) (by decide)
  have hwhole := IsDateTime.mk hdate hclock (isNumber_sixty t.clock.minute_lt)
    (isNumber_sixty t.clock.second_lt) (isFraction_fractionChars t.clock.micro_lt) h
  simpa only [Timestamp.chars, Timestamp.clockChars, List.append_nil, List.append_assoc] using hwhole

end Internet

/-! ## Offsets -/

theorem Offset.short_iff (o : Offset) :
    (o.clock.second = 0 ∧ o.clock.micro = 0) ↔ 60000000 ∣ o.micros := by
  have hsecond : o.clock.second = o.micros.natAbs / 1000000 % 60 := rfl
  have hmicro : o.clock.micro = o.micros.natAbs % 1000000 := rfl
  omega

namespace Internet

theorem isZone_offsetChars {o : Offset} (h : 60000000 ∣ o.micros) :
    IsZone (Timestamp.offsetChars o) := by
  have hhour := o.clock.hour_lt
  have hsign : o.sign = '+' ∨ o.sign = '-' := by
    unfold Offset.sign
    split
    · exact .inr rfl
    · exact .inl rfl
  rw [Timestamp.offsetChars_eq, Clock.shortChars, if_pos (o.short_iff.mpr h)]
  exact .numeric hsign (isNumber_padded (by decide) (Nat.zero_le _) (by omega) (by decide))
    (isNumber_sixty o.clock.minute_lt)

/-- In front of its last five characters a date-time has the sign of its zone, if that is no `Z`. -/
theorem sign_of_isDateTime {front rest : List Char} {c : Char} (hlength : rest.length = 5)
    (h : IsDateTime (front ++ c :: rest)) : c = '+' ∨ c = '-' ∨ 'Z' ∈ rest := by
  generalize hcs : front ++ c :: rest = cs at h
  obtain ⟨-, -, -, -, -, hzone⟩ := h
  cases hzone with
  | utc =>
    have hne : rest ≠ [] := List.ne_nil_of_length_eq_add_one hlength
    have hlast := congrArg List.getLast? hcs
    rw [List.getLast?_append_of_ne_nil _ (List.cons_ne_nil c rest),
      List.getLast?_append_of_ne_nil _ (List.cons_ne_nil 'Z' []),
      List.getLast?_cons_of_ne_nil hne] at hlast
    exact .inr (.inr (List.mem_of_getLast? hlast))
  | numeric hsign hhour hminute =>
    have hzone := List.append_inj_right' hcs (by simp [hlength, hhour.length, hminute.length])
    rw [List.cons_append, List.cons.injEq] at hzone
    rw [hzone.1]
    exact hsign.imp_right .inl

/-- The last six characters of a time of day are the colon before the minutes and what is behind it,
or the digits of its fraction. -/
theorem clockChars_end (c : Clock) :
    ∃ front d rest, Timestamp.clockChars c = front ++ d :: rest ∧ rest.length = 5 ∧
      ¬ (d = '+' ∨ d = '-' ∨ 'Z' ∈ rest) := by
  have hnot {cs : List Char} (h : Digits cs) {d : Char} (hd : d.isDigit = false) : d ∉ cs :=
    fun hmem => by rw [h d hmem] at hd; cases hd
  have hminute := isNumber_sixty c.minute_lt
  have hsecond := isNumber_sixty c.second_lt
  by_cases hmicro : c.micro = 0
  · refine ⟨padded 2 c.hour, ':', padded 2 c.minute ++ ':' :: padded 2 c.second, ?_, ?_, ?_⟩
    · simp [Timestamp.clockChars, Timestamp.fractionChars, hmicro]
    · simp [hminute.length, hsecond.length]
    · simp [hnot hminute.digits, hnot hsecond.digits]
  · have hlength := Timestamp.length_padded (n := c.micro) (by decide : 0 < 6) c.micro_lt
    have hdigits := Timestamp.digits_padded 6 c.micro
    obtain ⟨d, rest, hsplit⟩ := List.exists_cons_of_length_eq_add_one hlength
    rw [hsplit] at hlength hdigits
    refine ⟨padded 2 c.hour ++ ':' :: padded 2 c.minute ++ ':' :: padded 2 c.second ++ ['.'], d, rest,
      ?_, by simpa using hlength, ?_⟩
    · simp [Timestamp.clockChars, Timestamp.fractionChars, hmicro, hsplit]
    · rintro (rfl | rfl | hmem)
      · exact hnot hdigits (by decide : '+'.isDigit = false) List.mem_cons_self
      · exact hnot hdigits (by decide : '-'.isDigit = false) List.mem_cons_self
      · exact hnot hdigits (by decide : 'Z'.isDigit = false) (List.mem_cons_of_mem _ hmem)

/-- A time with an offset is shown as a date-time if and only if the offset has no seconds. -/
theorem isDateTime_chars_iff {t : Timestamp} {o : Offset} (h : t.offset = some o) :
    IsDateTime t.chars ↔ 60000000 ∣ o.micros := by
  have hchars : t.chars = ({ t with offset := none } : Timestamp).chars ++ Timestamp.offsetChars o := by
    simp only [Timestamp.chars, h, List.append_nil]
  rw [hchars]
  refine ⟨fun hwhole => ?_, fun hminutes => isDateTime_of_zone (isZone_offsetChars hminutes)⟩
  rw [← o.short_iff]
  by_contra hshort
  obtain ⟨front, d, rest, hclock, hlength, hnone⟩ := clockChars_end o.clock
  rw [Timestamp.offsetChars_eq, Clock.shortChars, if_neg hshort, hclock, ← List.cons_append,
    ← List.append_assoc] at hwhole
  exact hnone (sign_of_isDateTime hlength hwhole)

theorem isDateTime_anchored_iff (t : Timestamp) :
    IsDateTime t.anchored.text.toList ↔ ∀ o ∈ t.offset, 60000000 ∣ o.micros := by
  rw [Timestamp.text, String.toList_ofList, isDateTime_chars_iff rfl]
  cases t.offset with
  | none => simp [Offset.utc]
  | some o => simp

end Internet

end Detection
