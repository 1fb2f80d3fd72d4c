import Detection.Record
import Detection.Proofs.Json.Numbers
import Detection.Proofs.Success

/-! # Times that are written in a document and read back

A document has no seconds in the offset of a time. All else of a time comes back as it was.
-/

namespace Detection

/-! ## Padded numbers -/

namespace Timestamp

open Json (Digits)

theorem digits_padded (width n : Nat) : Digits (padded width n) :=
  Json.digits_append.mpr ⟨Json.digits_zeros _, Json.digits_toDigits n⟩

theorem length_padded {width n : Nat} (hwidth : 0 < width) (h : n < 10 ^ width) :
    (padded width n).length = width := by
  have hle := (Nat.length_toDigits_le_iff (by decide) hwidth).mpr h
  rw [padded, List.length_append, List.length_replicate]
  omega

theorem value_padded (width n : Nat) : Nat.ofDigitChars 10 (padded width n) 0 = n := by
  rw [padded, Nat.ofDigitChars_append, Nat.ofDigitChars_replicate_zero, Nat.mul_zero,
    Nat.ofDigitChars_ten_toDigits]

end Timestamp

theorem Calendar.daysInMonth_le (year month : Nat) : daysInMonth year month ≤ 31 := by
  have hall : ∀ leap, ∀ n ∈ monthLengths leap, n ≤ 31 := by decide
  rw [daysInMonth, List.getD_eq_getElem?_getD]
  cases hget : (monthLengths (isLeap year))[month - 1]? with
  | none => exact Nat.zero_le _
  | some n => exact hall _ n (List.mem_of_getElem? hget)

namespace Iso

open Json (Digits)
open Timestamp (padded)

def bytes (cs : List Char) : List UInt8 := cs.flatMap String.utf8EncodeChar

@[simp] theorem bytes_append (cs ds : List Char) : bytes (cs ++ ds) = bytes cs ++ bytes ds :=
  List.flatMap_append

theorem encode_ofList (cs : List Char) : Utf8.encode (String.ofList cs) = bytes cs := by
  rw [Utf8.encode, String.toList_ofList, bytes]

theorem encodeChar_digit {c : Char} (hc : c.isDigit = true) :
    ∃ b, String.utf8EncodeChar c = [b] ∧ isDigit b = true ∧ digitValue b = c.toNat - '0'.toNat := by
  have hrange : 48 ≤ c.toNat ∧ c.toNat ≤ 57 := by
    simpa [Char.isDigit, UInt32.le_iff_toNat_le] using hc
  have hval : c.val.toNat = c.toNat := rfl
  refine ⟨UInt8.ofNat c.toNat, ?_, ?_, ?_⟩
  · rw [String.utf8EncodeChar, hval]
    exact if_pos (by omega)
  · simp only [isDigit, UInt8.le_iff_toNat_le, Bool.and_eq_true, decide_eq_true_eq]
    rw [UInt8.toNat_ofNat', Nat.mod_eq_of_lt (by omega)]
    exact hrange
  · rw [digitValue, UInt8.toNat_ofNat', Nat.mod_eq_of_lt (by omega)]
    rfl

theorem digits?_bytes {cs : List Char} (hcs : Digits cs) (rest : List UInt8) :
    digits? cs.length (bytes cs ++ rest) = some (Nat.ofDigitChars 10 cs 0, rest) := by
  induction cs with
  | nil => rfl
  | cons c cs ih =>
    obtain ⟨hc, hcs⟩ := List.forall_mem_cons.mp hcs
    obtain ⟨b, hb, hdigit, hvalue⟩ := encodeChar_digit hc
    have hbytes : bytes (c :: cs) ++ rest = b :: (bytes cs ++ rest) := by
      rw [bytes, List.flatMap_cons, hb]
      rfl
    have hnumber : Nat.ofDigitChars 10 (c :: cs) 0 =
        (c.toNat - '0'.toNat) * tenTo cs.length + Nat.ofDigitChars 10 cs 0 := by
      rw [Nat.ofDigitChars_cons, Nat.mul_zero, Nat.zero_add,
        Nat.ofDigitChars_eq_ofDigitChars_zero, Nat.mul_comm]
      rfl
    rw [hbytes, List.length_cons, digits?, if_pos hdigit, ih hcs, hnumber, ← hvalue]
    rfl

theorem digits?_padded {width n : Nat} (hwidth : 0 < width) (h : n < 10 ^ width)
    (rest : List UInt8) : digits? width (bytes (padded width n) ++ rest) = some (n, rest) := by
  have hread := digits?_bytes (Timestamp.digits_padded width n) rest
  rwa [Timestamp.length_padded hwidth h, Timestamp.value_padded] at hread

@[simp] theorem digits?_two {n : Nat} (h : n < 100) (rest : List UInt8) :
    digits? 2 (bytes (padded 2 n) ++ rest) = some (n, rest) :=
  digits?_padded (by decide) h rest

@[simp] theorem digits?_two_end {n : Nat} (h : n < 100) :
    digits? 2 (bytes (padded 2 n)) = some (n, []) := by
  rw [← List.append_nil (bytes _), digits?_two h]

theorem isDigit_of_mem {cs : List Char} (hcs : Digits cs) {b : UInt8} (hb : b ∈ bytes cs) :
    isDigit b = true := by
  obtain ⟨c, hc, hmem⟩ := List.mem_flatMap.mp hb
  obtain ⟨b', hb', hdigit, -⟩ := encodeChar_digit (hcs c hc)
  rw [hb', List.mem_singleton] at hmem
  rwa [hmem]

theorem length_bytes {cs : List Char} (hcs : Digits cs) : (bytes cs).length = cs.length := by
  induction cs with
  | nil => rfl
  | cons c cs ih =>
    obtain ⟨hc, hcs⟩ := List.forall_mem_cons.mp hcs
    obtain ⟨b, hb, -⟩ := encodeChar_digit hc
    rw [bytes, List.flatMap_cons, hb, List.singleton_append, List.length_cons, List.length_cons,
      ← ih hcs, bytes]

/-! ## The date -/

section

variable (d : Date) (rest : List UInt8)

theorem bytes_dateChars : bytes (Timestamp.dateChars d) ++ rest =
    bytes (padded 4 d.year) ++
      0x2D :: (bytes (padded 2 d.month) ++ 0x2D :: (bytes (padded 2 d.day) ++ rest)) := by
  simp only [Timestamp.dateChars, bytes_append, List.append_assoc]
  rfl

theorem exists_month : ∃ a b, bytes (padded 2 d.month) = [a, b] ∧ isDigit a = true := by
  have hmonth := d.month_valid
  have hlength := length_bytes (Timestamp.digits_padded 2 d.month)
  rw [Timestamp.length_padded (by decide) (by omega), List.length_eq_two] at hlength
  obtain ⟨a, b, hbytes⟩ := hlength
  refine ⟨a, b, hbytes, isDigit_of_mem (Timestamp.digits_padded 2 d.month) ?_⟩
  rw [hbytes]
  exact List.mem_cons_self

@[simp] theorem date?_dateChars (length : Nat) :
    date? length (bytes (Timestamp.dateChars d) ++ rest) = some (.plain d.year d.month d.day) := by
  have hyear := d.year_valid
  have hmonth := d.month_valid
  have hday := d.day_valid
  have hbound := Calendar.daysInMonth_le d.year d.month
  obtain ⟨a, b, hbytes, ha⟩ := exists_month d
  have hweek : a ≠ 0x57 := by
    rintro rfl
    cases ha
  have hmonths := digits?_two (show d.month < 100 by omega)
    (0x2D :: (bytes (padded 2 d.day) ++ rest))
  rw [hbytes, List.cons_append, List.cons_append, List.nil_append] at hmonths
  rw [bytes_dateChars, hbytes]
  simp [date?, digits?_padded (show 0 < 4 by decide) (show d.year < 10 ^ 4 by omega), hweek, hmonths,
    show d.day < 100 by omega]

@[simp] theorem separatorAt?_dateChars (b : UInt8) :
    separatorAt? (bytes (Timestamp.dateChars d) ++ b :: rest) = some 10 := by
  have hyear := d.year_valid
  obtain ⟨m, m', hmonth, hm⟩ := exists_month d
  have hweek : m ≠ 0x57 := by
    rintro rfl
    cases hm
  have hlength := length_bytes (Timestamp.digits_padded 4 d.year)
  rw [Timestamp.length_padded (by decide) (by omega)] at hlength
  rw [bytes_dateChars, hmonth]
  match hy : bytes (padded 4 d.year), hlength with
  | [y1, y2, y3, y4], _ =>
    simp [separatorAt?, hweek]

@[simp] theorem drop_dateChars : (bytes (Timestamp.dateChars d) ++ rest).drop 10 = rest := by
  have hyear := d.year_valid
  have hmonth := d.month_valid
  have hday := d.day_valid
  have hbound := Calendar.daysInMonth_le d.year d.month
  have hlength : (bytes (Timestamp.dateChars d)).length = 10 := by
    rw [← List.append_nil (bytes _), bytes_dateChars]
    simp only [List.length_append, List.length_cons, length_bytes (Timestamp.digits_padded _ _),
      Timestamp.length_padded (show 0 < 4 by decide) (show d.year < 10 ^ 4 by omega),
      Timestamp.length_padded (show 0 < 2 by decide) (show d.month < 10 ^ 2 by omega),
      Timestamp.length_padded (show 0 < 2 by decide) (show d.day < 10 ^ 2 by omega), List.length_nil]
  exact List.drop_left' hlength

end

/-! ## The time of day -/

section

variable (stop : UInt8) (c : Clock)

@[simp] theorem after_nil (colon : Bool) : after stop colon [] = .ended (stop = 0) := rfl

@[simp] theorem after_colon {rest : List UInt8} (h : rest ≠ []) :
    after stop true (0x3A :: rest) = .part rest := by
  cases rest with
  | nil => exact absurd rfl h
  | cons b r => rfl

@[simp] theorem after_point {rest : List UInt8} (h : rest ≠ []) :
    after stop true (0x2E :: rest) = .fraction rest := by
  cases rest with
  | nil => exact absurd rfl h
  | cons b r => rfl

@[simp] theorem bytes_padded_ne_nil (width n : Nat) : bytes (padded width n) ≠ [] := by
  intro h
  have hlength := congrArg List.length h
  rw [length_bytes (Timestamp.digits_padded width n)] at hlength
  have hpos := Nat.length_toDigits_pos (b := 10) (n := n)
  simp only [padded, List.length_append, List.length_nil] at hlength
  omega

@[simp] theorem fraction?_padded {micro : Nat} (h : micro < 1000000) :
    fraction? stop (bytes (padded 6 micro)) = some (micro, decide (stop = 0)) := by
  have hlength := length_bytes (Timestamp.digits_padded 6 micro)
  rw [Timestamp.length_padded (by decide) (by omega)] at hlength
  have hread := digits?_padded (show 0 < 6 by decide) (show micro < 10 ^ 6 by omega) []
  rw [List.append_nil] at hread
  simp only [fraction?, hlength, Nat.min_self, hread, Nat.sub_self, show tenTo 0 = 1 from rfl]
  simp
  rfl

theorem bytes_clockChars : bytes (Timestamp.clockChars c) = bytes (padded 2 c.hour) ++
    0x3A :: (bytes (padded 2 c.minute) ++ 0x3A :: (bytes (padded 2 c.second) ++
      bytes (Timestamp.fractionChars c.micro))) := by
  simp only [Timestamp.clockChars, bytes_append, List.append_assoc]
  rfl

/-- What is read of the time of day is the time of day. -/
def readingOf (exact : Bool) : Reading := ⟨c.hour, c.minute, c.second, c.micro, exact⟩

@[simp] theorem reading?_clockChars :
    reading? stop (bytes (Timestamp.clockChars c)) = some (readingOf c (stop = 0)) := by
  have hhour := c.hour_lt
  have hminute := c.minute_lt
  have hsecond := c.second_lt
  rw [bytes_clockChars]
  by_cases hzero : c.micro = 0
  · have hend : bytes [] = [] := rfl
    rw [Timestamp.fractionChars, if_pos hzero, readingOf, hzero, hend]
    simp [reading?, show c.hour < 100 by omega, show c.minute < 100 by omega,
      show c.second < 100 by omega]
  · have hpoint : bytes ('.' :: padded 6 c.micro) = 0x2E :: bytes (padded 6 c.micro) := rfl
    rw [Timestamp.fractionChars, if_neg hzero, hpoint]
    simp [reading?, readingOf, c.micro_lt, show c.hour < 100 by omega,
      show c.minute < 100 by omega, show c.second < 100 by omega]

theorem startsOffset_digit {b : UInt8} (h : isDigit b = true) : startsOffset b = false := by
  rw [Bool.eq_false_iff]
  intro hsign
  simp only [startsOffset, Bool.or_eq_true, decide_eq_true_eq] at hsign
  rcases hsign with (rfl | rfl) | rfl <;> cases h

theorem startsOffset_clockChars : ∀ b ∈ bytes (Timestamp.clockChars c), startsOffset b = false := by
  have hdigits (width n : Nat) : ∀ b ∈ bytes (padded width n), startsOffset b = false :=
    fun b hb => startsOffset_digit (isDigit_of_mem (Timestamp.digits_padded width n) hb)
  have hfraction : ∀ b ∈ bytes (Timestamp.fractionChars c.micro), startsOffset b = false := by
    unfold Timestamp.fractionChars
    split
    · exact nofun
    · exact List.forall_mem_cons.mpr ⟨rfl, hdigits 6 c.micro⟩
  rw [bytes_clockChars]
  simp only [List.forall_mem_append, List.forall_mem_cons]
  exact ⟨hdigits _ _, rfl, hdigits _ _, rfl, hdigits _ _, hfraction⟩

theorem span_clockChars (zone : List UInt8) (hzone : ∀ b ∈ zone.head?, startsOffset b = true) :
    (bytes (Timestamp.clockChars c) ++ zone).span (!startsOffset ·) =
      (bytes (Timestamp.clockChars c), zone) := by
  have hbody : ∀ b ∈ bytes (Timestamp.clockChars c), (!startsOffset b) = true := fun b hb => by
    rw [startsOffset_clockChars c b hb]
    rfl
  have hstop : zone.takeWhile (!startsOffset ·) = [] ∧ zone.dropWhile (!startsOffset ·) = zone := by
    cases zone with
    | nil => exact ⟨rfl, rfl⟩
    | cons b r => simp [hzone b rfl]
  rw [List.span_eq_takeWhile_dropWhile, List.takeWhile_append_of_pos hbody,
    List.dropWhile_append_of_pos hbody, hstop.1, hstop.2, List.append_nil]

/-! ## The offset -/

theorem time?_clockChars :
    time? (bytes (Timestamp.clockChars c)) = some (readingOf c true, none) := by
  have hspan := span_clockChars c [] nofun
  rw [List.append_nil] at hspan
  simp only [time?, hspan, reading?_clockChars]
  rfl

theorem reading?_offset {hours minutes : Nat} (hhours : hours < 100) (hminutes : minutes < 100) :
    reading? 0 (bytes (padded 2 hours) ++ 0x3A :: bytes (padded 2 minutes)) =
      some ⟨hours, minutes, 0, 0, true⟩ := by
  simp [reading?, hhours, hminutes]

/-- The whole minutes of an offset, which are what a document holds of it. -/
def wholeMinutes (micros : Int) : Int := (micros.fdiv 1000000).tdiv 60 * 60000000

theorem natAbs_minutes_le (o : Offset) : ((o.micros.fdiv 1000000).tdiv 60).natAbs ≤ 1440 := by
  have hbounded := o.bounded
  have habs : ((o.micros / 1000000).tdiv 60).natAbs = (o.micros / 1000000).natAbs / 60 :=
    Int.natAbs_tdiv _ _
  rw [Int.fdiv_eq_ediv_of_nonneg _ (by decide), habs]
  omega

theorem time?_offsetChars (o : Offset) :
    ∃ exact, time? (bytes (Timestamp.clockChars c) ++ bytes (Record.offsetChars o)) =
      some (readingOf c exact, some (wholeMinutes o.micros)) := by
  by_cases hzero : o.micros.fdiv 1000000 = 0
  · have hbytes : bytes (Record.offsetChars o) = [0x5A] := by
      rw [Record.offsetChars, if_pos hzero]
      rfl
    have hspan := span_clockChars c [0x5A] (by simp [startsOffset])
    refine ⟨false, ?_⟩
    rw [hbytes, wholeMinutes, hzero]
    simp only [time?, hspan, reading?_clockChars]
    rfl
  · have hminutes := natAbs_minutes_le o
    generalize hm : (o.micros.fdiv 1000000).tdiv 60 = minutes at hminutes
    let sign : UInt8 := if minutes < 0 then 0x2D else 0x2B
    have hbytes : bytes (Record.offsetChars o) = sign :: (bytes (padded 2 (minutes.natAbs / 60)) ++
        0x3A :: bytes (padded 2 (minutes.natAbs % 60))) := by
      simp only [Record.offsetChars, hm, if_neg hzero, sign, bytes_append]
      split <;> rfl
    have hsign : startsOffset sign = true ∧ sign ≠ 0x5A := by
      unfold sign
      split <;> exact ⟨rfl, by decide⟩
    have hspan := span_clockChars c (sign :: (bytes (padded 2 (minutes.natAbs / 60)) ++
        0x3A :: bytes (padded 2 (minutes.natAbs % 60)))) (by simp [hsign.1])
    refine ⟨decide (sign = 0), ?_⟩
    rw [hbytes, wholeMinutes, hm]
    simp only [time?, hspan, reading?_clockChars, if_neg hsign.2,
      reading?_offset (show minutes.natAbs / 60 < 100 by omega)
        (show minutes.natAbs % 60 < 100 by omega), Option.bind_eq_bind, Option.bind_some, if_true]
    congr 3
    by_cases hnegative : minutes < 0
    · rw [if_pos (if_pos hnegative : sign = 0x2D)]
      split <;> omega
    · rw [if_neg (by simp [sign, hnegative] : sign ≠ 0x2D)]
      split <;> omega

end

/-! ## The whole text -/

theorem parts?_zone (t : Timestamp) {zone : List Char} {exact : Bool} {offset : Option Int}
    (h : time? (bytes (Timestamp.clockChars t.clock) ++ bytes zone) =
      some (readingOf t.clock exact, offset)) :
    parts? (String.ofList (({ t with offset := none } : Timestamp).chars ++ zone)) =
      some (.plain t.date.year t.date.month t.date.day, some (readingOf t.clock exact, offset)) := by
  have hyear := t.date.year_valid
  have hlong : 7 ≤ (({ t with offset := none } : Timestamp).chars ++ zone).length := by
    simp only [Timestamp.chars, Timestamp.dateChars, List.length_append, List.length_cons,
      Timestamp.length_padded (show 0 < 4 by decide) (show t.date.year < 10 ^ 4 by omega)]
    omega
  have hbytes : Utf8.encode (String.ofList (({ t with offset := none } : Timestamp).chars ++ zone)) =
      bytes (Timestamp.dateChars t.date) ++
        0x54 :: (bytes (Timestamp.clockChars t.clock) ++ bytes zone) := by
    rw [encode_ofList]
    simp only [Timestamp.chars, List.append_nil, bytes_append, List.append_assoc]
    rfl
  have hwidth : separatorWidth 0x54 - 1 = 0 := rfl
  rw [← String.length_ofList] at hlong
  simp only [parts?, hbytes, if_neg (Nat.not_lt.mpr hlong)]
  simp [hwidth, h]

@[simp] theorem check?_plain (d : Date) : (RawDate.plain d.year d.month d.day).check? = some (.ok d) := by
  rw [RawDate.check?, Date.ofFields, dif_pos d.year_valid, dif_pos d.month_valid,
    dif_pos d.day_valid]

@[simp] theorem ofFields_clock (c : Clock) : Clock.ofFields c.hour c.minute c.second c.micro = .ok c := by
  have hmicro : min c.micro 999999 = c.micro := Nat.min_eq_left (by have := c.micro_lt; omega)
  simp only [Clock.ofFields, dif_pos c.hour_lt, dif_pos c.minute_lt, dif_pos c.second_lt, hmicro]

theorem parse_zone (t : Timestamp) {zone : List Char} {exact : Bool} {offset : Option Int} :
    time? (bytes (Timestamp.clockChars t.clock) ++ bytes zone) =
        some (readingOf t.clock exact, offset) →
      parse (String.ofList (({ t with offset := none } : Timestamp).chars ++ zone)) =
        match offset with
        | none => .ok { t with offset := none }
        | some micros =>
          match Offset.ofMicros? micros with
          | none => .error (.offset micros)
          | some o => .ok { t with offset := some o } := by
  intro h
  simp only [parse, parts?_zone t h, check?_plain, readingOf, ofFields_clock, Option.bind_some]
  cases offset with
  | none => rfl
  | some micros =>
    simp only
    cases Offset.ofMicros? micros <;> rfl

/-- A time is read back with its offset cut to whole minutes, where these are an offset. -/
theorem parse_timeText (t : Timestamp) :
    parse (Record.timeText t) =
      match t.offset with
      | none => .ok t
      | some o =>
        match Offset.ofMicros? (wholeMinutes o.micros) with
        | none => .error (.offset (wholeMinutes o.micros))
        | some o => .ok { t with offset := some o } := by
  unfold Record.timeText
  cases hoffset : t.offset with
  | none =>
    have htime := time?_clockChars t.clock
    rw [← List.append_nil (bytes _)] at htime
    rw [@parse_zone t [] _ _ htime]
    cases t
    cases hoffset
    rfl
  | some o =>
    obtain ⟨exact, htime⟩ := time?_offsetChars t.clock o
    exact parse_zone t htime

theorem wholeMinutes_eq_iff {micros : Int} : wholeMinutes micros = micros ↔ 60000000 ∣ micros := by
  unfold wholeMinutes
  constructor
  · intro h
    rw [← h]
    exact Int.dvd_mul_left _ _
  · rintro ⟨n, rfl⟩
    have hseconds : (60000000 * n).fdiv 1000000 = 60 * n := by
      rw [Int.fdiv_eq_ediv_of_nonneg _ (by decide)]
      omega
    rw [hseconds, Int.mul_tdiv_cancel_left _ (by decide), Int.mul_comm]

theorem parse_timeText_iff (t : Timestamp) :
    parse (Record.timeText t) = .ok t ↔ ∀ o ∈ t.offset, 60000000 ∣ o.micros := by
  rw [parse_timeText]
  obtain ⟨date, clock, offset⟩ := t
  cases offset with
  | none => simp
  | some o =>
    simp only [Option.mem_some_iff, forall_eq']
    rw [← wholeMinutes_eq_iff, Offset.ofMicros?]
    by_cases hbounded : (wholeMinutes o.micros).natAbs < 86400000000
    · obtain ⟨micros, _⟩ := o
      simp only [dif_pos hbounded, Except.ok.injEq, Timestamp.mk.injEq, true_and,
        Option.some.injEq, Offset.mk.injEq]
    · simp only [dif_neg hbounded, reduceCtorEq, false_iff]
      intro heq
      rw [heq] at hbounded
      exact hbounded o.bounded

end Iso
end Detection
