import Detection.Proofs.Time.Counted
import Detection.Proofs.Time.ReadBack
import Detection.Rendered

/-! # Times that are shown and read back

A shown time has all of its offset. The reader takes an offset below a second for none, but it never
gave one either, so what it reads is shown and read back as it is.
-/

namespace Detection

open Timestamp (padded)

/-! ## The text of an offset -/

def Offset.clock (o : Offset) : Clock := .ofMicros o.micros.natAbs

def Offset.sign (o : Offset) : Char := if o.micros < 0 then '-' else '+'

/-- Seconds are left out where there are none, nor a fraction of one. -/
def Clock.shortChars (c : Clock) : List Char :=
  if c.second = 0 ∧ c.micro = 0 then padded 2 c.hour ++ ':' :: padded 2 c.minute
  else Timestamp.clockChars c

theorem Timestamp.offsetChars_eq (o : Offset) :
    Timestamp.offsetChars o = o.sign :: o.clock.shortChars := by
  have hbounded := o.bounded
  have hhour : o.clock.hour = o.micros.natAbs / 60000000 / 60 := by
    simp only [Offset.clock, Clock.ofMicros]
    omega
  have hminute : o.clock.minute = o.micros.natAbs / 60000000 % 60 := rfl
  have hsecond : o.clock.second = o.micros.natAbs % 60000000 / 1000000 := by
    simp only [Offset.clock, Clock.ofMicros]
    omega
  have hmicro : o.clock.micro = o.micros.natAbs % 60000000 % 1000000 := by
    simp only [Offset.clock, Clock.ofMicros]
    omega
  have hrest : o.micros.natAbs % 60000000 = 0 ↔ o.clock.second = 0 ∧ o.clock.micro = 0 := by
    omega
  unfold Timestamp.offsetChars Offset.sign Clock.shortChars Timestamp.clockChars
  simp only [hrest, ← hhour, ← hminute, ← hsecond, ← hmicro]
  by_cases hzero : o.clock.second = 0 ∧ o.clock.micro = 0
  · simp only [if_pos hzero, List.append_nil, List.cons_append]
  · simp only [if_neg hzero, List.append_assoc, List.cons_append]

theorem Offset.ofMicros?_eq_some {micros : Int} {o : Offset} :
    ofMicros? micros = some o ↔ o.micros = micros := by
  constructor
  · unfold ofMicros?
    split
    · rintro ⟨⟩
      rfl
    · intro h
      cases h
  · rintro rfl
    exact dif_pos o.bounded

namespace Iso

@[simp] theorem reading?_shortChars (c : Clock) :
    reading? 0 (bytes c.shortChars) = some (readingOf c true) := by
  have hhour := c.hour_lt
  have hminute := c.minute_lt
  unfold Clock.shortChars
  split
  · rename_i hzero
    have hread := reading?_offset (show c.hour < 100 by omega) (show c.minute < 100 by omega)
    rw [readingOf, hzero.1, hzero.2, bytes_append]
    exact hread
  · exact reading?_clockChars 0 c

/-- What is read of an offset: below a second, none. -/
def heldMicros (micros : Int) : Int := if micros.natAbs < 1000000 then 0 else micros

theorem micros_clock (o : Offset) :
    o.clock.hour * 3600 + o.clock.minute * 60 + o.clock.second = o.micros.natAbs / 1000000 ∧
      o.clock.micro = o.micros.natAbs % 1000000 := by
  have hcounted := Clock.toMicros_ofMicros o.bounded
  have hmicro := o.clock.micro_lt
  rw [← Offset.clock, Clock.toMicros] at hcounted
  omega

theorem time?_shownOffset (c : Clock) (o : Offset) :
    ∃ exact, time? (bytes (Timestamp.clockChars c) ++ bytes (Timestamp.offsetChars o)) =
      some (readingOf c exact, some (heldMicros o.micros)) := by
  obtain ⟨hseconds, hmicro⟩ := micros_clock o
  let sign : UInt8 := if o.micros < 0 then 0x2D else 0x2B
  have hbytes : bytes (Timestamp.offsetChars o) = sign :: bytes o.clock.shortChars := by
    rw [Timestamp.offsetChars_eq, Offset.sign]
    unfold sign
    split <;> rfl
  have hsign : startsOffset sign = true ∧ sign ≠ 0x5A := by
    unfold sign
    split <;> exact ⟨rfl, by decide⟩
  have hspan := span_clockChars c (sign :: bytes o.clock.shortChars) (by simp [hsign.1])
  refine ⟨decide (sign = 0), ?_⟩
  rw [hbytes]
  simp only [time?, hspan, reading?_clockChars, if_neg hsign.2, reading?_shortChars,
    Option.bind_eq_bind, Option.bind_some]
  simp only [readingOf, if_true, hseconds, hmicro]
  congr 3
  unfold heldMicros
  by_cases hnegative : o.micros < 0
  · rw [if_pos (if_pos hnegative : sign = 0x2D)]
    split <;> split <;> omega
  · rw [if_neg (by simp [sign, hnegative] : sign ≠ 0x2D)]
    split <;> split <;> omega

/-! ## The whole text -/

/-- The reader gives such an offset. -/
def IsHeld (o : Offset) : Prop := heldMicros o.micros = o.micros

theorem isHeld_utc : IsHeld .utc := rfl

theorem text_eq (t : Timestamp) :
    t.text = String.ofList (({ t with offset := none } : Timestamp).chars ++
      (t.offset.elim [] Timestamp.offsetChars)) := by
  unfold Timestamp.text Timestamp.chars
  cases t.offset <;> simp only [Option.elim_none, Option.elim_some, List.append_nil]

theorem parse_text {t : Timestamp} (h : ∀ o ∈ t.offset, IsHeld o) : parse t.text = .ok t := by
  rw [text_eq]
  cases hoffset : t.offset with
  | none =>
    have htime := time?_clockChars t.clock
    rw [← List.append_nil (bytes _)] at htime
    rw [Option.elim_none, @parse_zone t [] _ _ htime, ← hoffset]
  | some o =>
    have hheld : heldMicros o.micros = o.micros := h o hoffset
    have hbounded : Offset.ofMicros? o.micros = some o := Offset.ofMicros?_eq_some.mpr rfl
    obtain ⟨exact, htime⟩ := time?_shownOffset t.clock o
    rw [Option.elim_some, parse_zone t htime, hheld]
    simp only [hbounded]
    rw [← hoffset]

theorem isHeld_of_time? {bs : List UInt8} {r : Reading} {micros : Int}
    (h : time? bs = some (r, some micros)) : heldMicros micros = micros := by
  unfold time? at h
  simp only [Option.bind_eq_bind] at h
  split at h
  · obtain ⟨body, -, h⟩ := Option.bind_eq_some_iff.mp h
    split at h <;> cases h
  · obtain ⟨body, -, h⟩ := Option.bind_eq_some_iff.mp h
    split at h
    · split at h
      · cases h
        rfl
      · cases h
    · obtain ⟨o, -, h⟩ := Option.bind_eq_some_iff.mp h
      split at h
      · simp only [Option.some.injEq, Prod.mk.injEq] at h
        rw [← h.2]
        unfold heldMicros
        split <;> split <;> split <;> omega
      · cases h

theorem parts?_ok {text : String} {date : RawDate} {time : Reading × Option Int}
    (h : parts? text = some (date, some time)) : ∃ bs, time? bs = some time := by
  unfold parts? at h
  simp only [Option.bind_eq_bind] at h
  split at h
  · cases h
  · obtain ⟨dateEnd, -, h⟩ := Option.bind_eq_some_iff.mp h
    obtain ⟨raw, -, h⟩ := Option.bind_eq_some_iff.mp h
    split at h
    · cases h
    · obtain ⟨read, hread, h⟩ := Option.bind_eq_some_iff.mp h
      cases h
      exact ⟨_, hread⟩

theorem offset_of_parse {text : String} {t : Timestamp} (h : parse text = .ok t) :
    ∀ o ∈ t.offset, ∃ date r, parts? text = some (date, some (r, some o.micros)) := by
  unfold parse at h
  split at h
  · rename_i raw time hparts
    split at h
    · match time with
      | none =>
        simp only [Option.bind_none, pure_bind] at h
        obtain ⟨date, -, h⟩ := bind_ok.mp h
        cases h
        nofun
      | some (r, none) =>
        simp only [Option.bind_some, pure_bind] at h
        obtain ⟨date, -, h⟩ := bind_ok.mp h
        obtain ⟨clock, -, h⟩ := bind_ok.mp h
        cases h
        nofun
      | some (r, some micros) =>
        simp only [Option.bind_some, pure_bind] at h
        split at h
        · cases h
        · rename_i o hbounded
          obtain ⟨date, -, h⟩ := bind_ok.mp h
          obtain ⟨clock, -, h⟩ := bind_ok.mp h
          cases h
          rintro o' ⟨⟩
          exact ⟨raw, r, Offset.ofMicros?_eq_some.mp hbounded ▸ hparts⟩
    · cases h
  · cases h

theorem isHeld_of_parse {text : String} {t : Timestamp} (h : parse text = .ok t) :
    ∀ o ∈ t.offset, IsHeld o := by
  intro o ho
  obtain ⟨date, r, hparts⟩ := offset_of_parse h o ho
  obtain ⟨bs, htime⟩ := parts?_ok hparts
  exact isHeld_of_time? htime

end Iso

namespace Timestamp

theorem isHeld_of_wire {v : Value} {t : Timestamp} (hgiven : ∀ t', v ≠ .time t')
    (h : Wire.time v = .ok (.time t)) : ∀ o ∈ t.offset, Iso.IsHeld o := by
  have hcount {nanos : Int} {t : Timestamp} (h : ofNanos nanos = .ok t) :
      ∀ o ∈ t.offset, Iso.IsHeld o := by
    rw [(ofNanos_ok_iff.mp h).2.1]
    rintro o ⟨⟩
    exact Iso.isHeld_utc
  unfold Wire.time at h
  simp only at h
  split at h
  · exact absurd rfl (hgiven _)
  · split at h
    · rename_i hread
      cases h
      exact hcount hread
    · cases h
  · split at h
    · split at h
      · rename_i hread
        cases h
        exact hcount hread
      · cases h
    · cases h
  · split at h
    · rename_i hread
      cases h
      exact Iso.isHeld_of_parse hread
    · cases h
  · cases h

/-- A time that is read, of text or of a count, is read again from the text it is shown as: it has the
same date, time of day and offset, none counting as that of universal time, and it is shown as the
same text. -/
theorem time_readBack {v : Value} {t : Timestamp} (hgiven : ∀ t', v ≠ .time t')
    (h : Wire.time v = .ok (.time t)) :
    ∃ t', Wire.time (.text (Value.time t).rendered) = .ok (.time t') ∧
      t'.date = t.date ∧ t'.clock = t.clock ∧ t'.offset = some (t.offset.getD .utc) ∧
      (Value.time t').rendered = (Value.time t).rendered ∧
      (t.offset = none →
        (Value.time { t with offset := some .utc }).rendered = (Value.time t).rendered) := by
  have hheld : ∀ o ∈ t.anchored.offset, Iso.IsHeld o := by
    have hread := isHeld_of_wire hgiven h
    unfold anchored
    cases hoffset : t.offset with
    | none =>
      rintro o ⟨⟩
      exact Iso.isHeld_utc
    | some o => exact hoffset ▸ hread
  have hparse := Iso.parse_text hheld
  refine ⟨t.anchored, ?_, rfl, rfl, rfl, rfl, fun hnone => ?_⟩
  · simp only [Wire.time, Value.rendered, hparse]
  · simp only [Value.rendered, anchored, hnone, Option.getD_some, Option.getD_none]

/-- A day of a week, a comma in front of the fraction, and an offset down to microseconds. -/
theorem time_readBack_week :
    ∃ t, Wire.time (.text "2024-W01-2 03:04:05,25-01:02:03.000004") = .ok (.time t) ∧
      ∃ t', Wire.time (.text (Value.time t).rendered) = .ok (.time t') ∧
        t'.date = t.date ∧ t'.clock = t.clock ∧ t'.offset = some (t.offset.getD .utc) ∧
        (Value.time t').rendered = (Value.time t).rendered ∧
        (t.offset = none →
          (Value.time { t with offset := some .utc }).rendered = (Value.time t).rendered) := by
  have hread : (Iso.parse "2024-W01-2 03:04:05,25-01:02:03.000004").toOption.isSome = true := by
    decide +kernel
  obtain ⟨t, ht⟩ := exists_of_isSome hread
  have htime : Wire.time (.text "2024-W01-2 03:04:05,25-01:02:03.000004") = .ok (.time t) := by
    simp only [Wire.time, ht]
  exact ⟨t, htime, time_readBack (by simp) htime⟩

end Timestamp

end Detection
