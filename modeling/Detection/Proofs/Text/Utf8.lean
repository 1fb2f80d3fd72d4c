import Detection.Text.Utf8

/-! # Text that is written as bytes reads back

The cases are those of the number of bytes that a character takes.
-/

namespace Detection.Utf8

/-! ## Bytes as numbers -/

theorem exists_byte {n : Nat} (h : n < 256) : ∃ b, UInt8.ofNat n = b ∧ b.toNat = n :=
  ⟨_, rfl, by rw [UInt8.toNat_ofNat', Nat.mod_eq_of_lt h]⟩

theorem isContinuation_iff {b : UInt8} :
    isContinuation b = true ↔ 128 ≤ b.toNat ∧ b.toNat ≤ 191 := by
  simp [isContinuation, UInt8.le_iff_toNat_le]

theorem isSecond_iff {a b : UInt8} :
    isSecond a b = true ↔ (128 ≤ b.toNat ∧ b.toNat ≤ 191) ∧ (a.toNat = 224 → 160 ≤ b.toNat) ∧
      (a.toNat = 237 → b.toNat < 160) ∧ (a.toNat = 240 → 144 ≤ b.toNat) ∧
      (a.toNat = 244 → b.toNat < 144) := by
  simp only [isSecond, Bool.and_eq_true, Bool.or_eq_true, isContinuation_iff, decide_eq_true_eq,
    UInt8.le_iff_toNat_le, UInt8.lt_iff_toNat_lt, ne_eq, ← UInt8.toNat_inj]
  simp only [UInt8.reduceToNat]
  omega

/-! ## Characters of each width -/

section Widths

variable {a : UInt8}

theorem width_one (h : a.toNat < 128) : width a = 1 := if_pos h

theorem width_two (h : 194 ≤ a.toNat) (h' : a.toNat < 224) : width a = 2 := by
  have h1 : ¬ a < 0x80 := Nat.not_lt.mpr (Nat.le_trans (by decide) h)
  have h2 : ¬ a < 0xC2 := Nat.not_lt.mpr h
  rw [width, if_neg h1, if_neg h2]
  exact if_pos h'

theorem width_three (h : 224 ≤ a.toNat) (h' : a.toNat < 240) : width a = 3 := by
  have h1 : ¬ a < 0x80 := Nat.not_lt.mpr (Nat.le_trans (by decide) h)
  have h2 : ¬ a < 0xC2 := Nat.not_lt.mpr (Nat.le_trans (by decide) h)
  have h3 : ¬ a < 0xE0 := Nat.not_lt.mpr h
  rw [width, if_neg h1, if_neg h2, if_neg h3]
  exact if_pos h'

theorem width_four (h : 240 ≤ a.toNat) (h' : a.toNat < 245) : width a = 4 := by
  have h1 : ¬ a < 0x80 := Nat.not_lt.mpr (Nat.le_trans (by decide) h)
  have h2 : ¬ a < 0xC2 := Nat.not_lt.mpr (Nat.le_trans (by decide) h)
  have h3 : ¬ a < 0xE0 := Nat.not_lt.mpr (Nat.le_trans (by decide) h)
  have h4 : ¬ a < 0xF0 := Nat.not_lt.mpr h
  rw [width, if_neg h1, if_neg h2, if_neg h3, if_neg h4]
  exact if_pos h'

variable {b c d : UInt8} (rest : List UInt8)

theorem pieces_one (ha : width a = 1) :
    pieces (a :: rest) = .char (Char.ofNat a.toNat) :: pieces rest := by
  rw [pieces.eq_def]
  simp only [ha]

theorem pieces_two (ha : width a = 2) (hb : isContinuation b = true) :
    pieces (a :: b :: rest) = .char (Char.ofNat (extend (a.toNat - 0xC0) b)) :: pieces rest := by
  rw [pieces.eq_def]
  simp only [ha, hb, if_true]

theorem pieces_three (ha : width a = 3) (hb : isSecond a b = true)
    (hc : isContinuation c = true) :
    pieces (a :: b :: c :: rest) =
      .char (Char.ofNat (extend (extend (a.toNat - 0xE0) b) c)) :: pieces rest := by
  rw [pieces.eq_def]
  simp only [ha, hb, hc, if_true]

theorem pieces_four (ha : width a = 4) (hb : isSecond a b = true)
    (hc : isContinuation c = true) (hd : isContinuation d = true) :
    pieces (a :: b :: c :: d :: rest) =
      .char (Char.ofNat (extend (extend (extend (a.toNat - 0xF0) b) c) d)) :: pieces rest := by
  rw [pieces.eq_def]
  simp only [ha, hb, hc, hd, if_true]

end Widths

theorem pieces_encodeChar (c : Char) (rest : List UInt8) :
    pieces (String.utf8EncodeChar c ++ rest) = .char c :: pieces rest := by
  have hvalid : c.toNat < 0xD800 ∨ 0xDFFF < c.toNat ∧ c.toNat < 0x110000 := c.valid
  have hchar : Char.ofNat c.toNat = c := Char.ofNat_toNat c
  have hv : c.val.toNat = c.toNat := rfl
  simp only [String.utf8EncodeChar, hv]
  generalize c.toNat = v at hvalid hchar
  -- one byte, two, three or four; the low bytes are shared
  split
  · obtain ⟨a, ha, hval⟩ := exists_byte (n := v) (by omega)
    rw [ha, List.singleton_append, pieces_one rest (width_one (by omega)), hval, hchar]
  obtain ⟨low, hlow, hlowval⟩ := exists_byte (n := v % 64 + 128) (by omega)
  have hlowgoes := isContinuation_iff.mpr (show 128 ≤ low.toNat ∧ low.toNat ≤ 191 by omega)
  rw [hlow]
  split
  · obtain ⟨a, ha, hval⟩ := exists_byte (n := v / 64 % 32 + 192) (by omega)
    have hpoint : extend (a.toNat - 0xC0) low = v := by
      unfold extend
      omega
    rw [ha, List.cons_append, List.singleton_append,
      pieces_two rest (width_two (by omega) (by omega)) hlowgoes, hpoint, hchar]
  obtain ⟨mid, hmid, hmidval⟩ := exists_byte (n := v / 64 % 64 + 128) (by omega)
  have hmidgoes := isContinuation_iff.mpr (show 128 ≤ mid.toNat ∧ mid.toNat ≤ 191 by omega)
  rw [hmid]
  split
  · obtain ⟨a, ha, hval⟩ := exists_byte (n := v / 4096 % 16 + 224) (by omega)
    have hsecond : isSecond a mid = true := isSecond_iff.mpr (by omega)
    have hpoint : extend (extend (a.toNat - 0xE0) mid) low = v := by
      unfold extend
      omega
    rw [ha, List.cons_append, List.cons_append, List.singleton_append,
      pieces_three rest (width_three (by omega) (by omega)) hsecond hlowgoes, hpoint, hchar]
  · obtain ⟨high, hhigh, hhighval⟩ := exists_byte (n := v / 4096 % 64 + 128) (by omega)
    obtain ⟨a, ha, hval⟩ := exists_byte (n := v / 262144 % 8 + 240) (by omega)
    have hsecond : isSecond a high = true := isSecond_iff.mpr (by omega)
    have hpoint : extend (extend (extend (a.toNat - 0xF0) high) mid) low = v := by
      unfold extend
      omega
    rw [ha, hhigh, List.cons_append, List.cons_append, List.cons_append, List.singleton_append,
      pieces_four rest (width_four (by omega) (by omega)) hsecond hmidgoes hlowgoes, hpoint, hchar]

/-! ## Whole texts -/

theorem pieces_encode (cs : List Char) :
    pieces (cs.flatMap String.utf8EncodeChar) = cs.map .char := by
  induction cs with
  | nil => rfl
  | cons c cs ih => rw [List.flatMap_cons, pieces_encodeChar, ih, List.map_cons]

theorem charsFrom_chars (bytes : List UInt8) (position : Nat) (cs : List Char) :
    charsFrom bytes position (cs.map .char) = .ok cs := by
  induction cs generalizing position with
  | nil => rfl
  | cons c cs ih =>
    rw [List.map_cons, charsFrom, ih]
    rfl

theorem decode_encode (s : String) : decode (encode s) = .ok s := by
  rw [decode, encode, pieces_encode, charsFrom_chars]
  show Except.ok (String.ofList s.toList) = _
  rw [String.ofList_toList]

/-! ## Bytes that are read as text -/

theorem first_of_width (a : UInt8) : (width a = 1 → a.toNat < 128) ∧
    (width a = 2 → 194 ≤ a.toNat ∧ a.toNat < 224) ∧
    (width a = 3 → 224 ≤ a.toNat ∧ a.toNat < 240) ∧
    (width a = 4 → 240 ≤ a.toNat ∧ a.toNat < 245) := by
  simp only [width, UInt8.lt_iff_toNat_lt, UInt8.reduceToNat]
  repeat' split
  all_goals omega

theorem encodeChar_ofNat {n : Nat} (h : n < 0xD800 ∨ 0xDFFF < n ∧ n < 0x110000) :
    (String.utf8EncodeChar (Char.ofNat n)).map UInt8.toNat =
      if n ≤ 127 then [n]
      else if n ≤ 2047 then [n / 64 + 192, n % 64 + 128]
      else if n ≤ 65535 then [n / 4096 + 224, n / 64 % 64 + 128, n % 64 + 128]
      else [n / 262144 + 240, n / 4096 % 64 + 128, n / 64 % 64 + 128, n % 64 + 128] := by
  have hvalid : n.isValidChar := h
  have hval : (Char.ofNat n).val.toNat = n := by
    rw [Char.ofNat, dif_pos hvalid]
    rfl
  simp only [String.utf8EncodeChar, hval]
  split
  · simp
    omega
  split
  · simp
    omega
  split
  · simp
    omega
  · simp
    omega

theorem bytes_ext {as bs : List UInt8} (h : as.map UInt8.toNat = bs.map UInt8.toNat) : as = bs :=
  (List.map_inj_right fun _ _ => UInt8.toNat_inj.mp).mp h

section Characters

variable {a b c d : UInt8}

theorem encodeChar_one (ha : width a = 1) : String.utf8EncodeChar (Char.ofNat a.toNat) = [a] := by
  have hfirst := (first_of_width a).1 ha
  apply bytes_ext
  rw [encodeChar_ofNat (by omega), if_pos (by omega)]
  rfl

theorem encodeChar_two (ha : width a = 2) (hb : isContinuation b = true) :
    String.utf8EncodeChar (Char.ofNat (extend (a.toNat - 0xC0) b)) = [a, b] := by
  have hfirst := (first_of_width a).2.1 ha
  rw [isContinuation_iff] at hb
  obtain ⟨n, hn⟩ : ∃ n, n = extend (a.toNat - 0xC0) b := ⟨_, rfl⟩
  rw [← hn]
  unfold extend at hn
  apply bytes_ext
  rw [encodeChar_ofNat (by omega), if_neg (by omega), if_pos (by omega)]
  simp only [List.map_cons, List.map_nil, List.cons.injEq, and_true]
  omega

theorem encodeChar_three (ha : width a = 3) (hb : isSecond a b = true)
    (hc : isContinuation c = true) :
    String.utf8EncodeChar (Char.ofNat (extend (extend (a.toNat - 0xE0) b) c)) = [a, b, c] := by
  have hfirst := (first_of_width a).2.2.1 ha
  rw [isSecond_iff] at hb
  rw [isContinuation_iff] at hc
  obtain ⟨n, hn⟩ : ∃ n, n = extend (extend (a.toNat - 0xE0) b) c := ⟨_, rfl⟩
  rw [← hn]
  unfold extend at hn
  apply bytes_ext
  rw [encodeChar_ofNat (by omega)]
  simp only [show ¬ n ≤ 127 by omega, show ¬ n ≤ 2047 by omega, show n ≤ 65535 by omega, if_true,
    if_false, List.map_cons, List.map_nil, List.cons.injEq, and_true]
  omega

theorem encodeChar_four (ha : width a = 4) (hb : isSecond a b = true)
    (hc : isContinuation c = true) (hd : isContinuation d = true) :
    String.utf8EncodeChar (Char.ofNat (extend (extend (extend (a.toNat - 0xF0) b) c) d)) =
      [a, b, c, d] := by
  have hfirst := (first_of_width a).2.2.2 ha
  rw [isSecond_iff] at hb
  rw [isContinuation_iff] at hc hd
  obtain ⟨n, hn⟩ : ∃ n, n = extend (extend (extend (a.toNat - 0xF0) b) c) d := ⟨_, rfl⟩
  rw [← hn]
  unfold extend at hn
  apply bytes_ext
  rw [encodeChar_ofNat (by omega)]
  simp only [show ¬ n ≤ 127 by omega, show ¬ n ≤ 2047 by omega, show ¬ n ≤ 65535 by omega, if_false,
    List.map_cons, List.map_nil, List.cons.injEq, and_true]
  omega

end Characters

theorem charsFrom_char {bytes : List UInt8} {position : Nat} {c : Char} {ps : List Piece}
    {cs : List Char} (h : charsFrom bytes position (.char c :: ps) = .ok cs) :
    ∃ position' cs', charsFrom bytes position' ps = .ok cs' ∧ cs = c :: cs' := by
  rw [charsFrom] at h
  cases hrest : charsFrom bytes (position + (String.utf8EncodeChar c).length) ps with
  | error f =>
    rw [hrest] at h
    cases h
  | ok cs' =>
    rw [hrest] at h
    cases h
    exact ⟨_, cs', hrest, rfl⟩

theorem flatMap_charsFrom {bytes bs : List UInt8} {position : Nat} {cs : List Char}
    (h : charsFrom bytes position (pieces bs) = .ok cs) :
    cs.flatMap String.utf8EncodeChar = bs := by
  fun_induction pieces bs generalizing position cs with
  | case1 =>
    cases h
    rfl
  | case2 a r ha ih =>
    obtain ⟨_, cs', hrest, rfl⟩ := charsFrom_char h
    rw [List.flatMap_cons, encodeChar_one ha, ih hrest]
    rfl
  | case4 a ha b r hb ih =>
    obtain ⟨_, cs', hrest, rfl⟩ := charsFrom_char h
    rw [List.flatMap_cons, encodeChar_two ha hb, ih hrest]
    rfl
  | case8 a ha b hb c r hc ih =>
    obtain ⟨_, cs', hrest, rfl⟩ := charsFrom_char h
    rw [List.flatMap_cons, encodeChar_three ha hb hc, ih hrest]
    rfl
  | case14 a ha b hb c hc d r hd ih =>
    obtain ⟨_, cs', hrest, rfl⟩ := charsFrom_char h
    rw [List.flatMap_cons, encodeChar_four ha hb hc hd, ih hrest]
    rfl
  | _ => cases h

theorem encode_of_decode {bs : List UInt8} {s : String} (h : decode bs = .ok s) :
    encode s = bs := by
  unfold decode at h
  cases hchars : charsFrom bs 0 (pieces bs) with
  | error f =>
    rw [hchars] at h
    cases h
  | ok cs =>
    rw [hchars] at h
    cases h
    rw [encode, String.toList_ofList]
    exact flatMap_charsFrom hchars

theorem decode_ok_iff {bs : List UInt8} {s : String} : decode bs = .ok s ↔ encode s = bs := by
  constructor
  · exact encode_of_decode
  · rintro rfl
    exact decode_encode s

end Detection.Utf8
