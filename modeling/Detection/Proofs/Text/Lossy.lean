import Detection.Proofs.Text.Utf8
import Detection.Rendered

/-! # Bytes shown as text, with a replacement character for each flawed stretch

A flawed stretch ends before the first byte that cannot continue it. So bytes that are cut in two
where the second part starts afresh are shown part by part.
-/

namespace Detection.Utf8

def Piece.shown : Piece → Char
  | .char c => c
  | .bad _ _ => '\ufffd'

theorem toList_decodeLossy (bs : List UInt8) :
    (decodeLossy bs).toList = (pieces bs).map Piece.shown := by
  unfold decodeLossy
  rw [String.toList_ofList]
  refine List.map_congr_left fun p _ => ?_
  cases p <;> rfl

/-! ## Text, and bytes that are none -/

theorem decodeLossy_of_decode {bs : List UInt8} {s : String} (h : decode bs = .ok s) :
    decodeLossy bs = s := by
  apply String.toList_injective
  rw [toList_decodeLossy, ← encode_of_decode h, encode, pieces_encode, List.map_map]
  exact List.map_id _

theorem decodeLossy_encode (s : String) : decodeLossy (encode s) = s :=
  decodeLossy_of_decode (decode_encode s)

theorem chars_or_flaw (ps : List Piece) :
    (∃ cs : List Char, ps = cs.map .char) ∨ ∃ flaw size, .bad flaw size ∈ ps := by
  induction ps with
  | nil => exact .inl ⟨[], rfl⟩
  | cons p ps ih =>
    cases p with
    | bad flaw size => exact .inr ⟨flaw, size, List.mem_cons_self⟩
    | char c =>
      rcases ih with ⟨cs, hcs⟩ | ⟨flaw, size, hmem⟩
      · exact .inl ⟨c :: cs, by rw [hcs, List.map_cons]⟩
      · exact .inr ⟨flaw, size, List.mem_cons_of_mem _ hmem⟩

theorem replacement_mem_decodeLossy {bs : List UInt8} (h : ∀ s, decode bs ≠ .ok s) :
    '\ufffd' ∈ (decodeLossy bs).toList := by
  rw [toList_decodeLossy]
  rcases chars_or_flaw (pieces bs) with ⟨cs, hcs⟩ | ⟨flaw, size, hmem⟩
  · refine absurd ?_ (h (String.ofList cs))
    rw [decode, hcs, charsFrom_chars]
    rfl
  · exact List.mem_map.mpr ⟨_, hmem, rfl⟩

/-! ## Where a flawed stretch ends -/

/-- The first bytes of a character, and not all of them. -/
inductive Unfinished : List UInt8 → Prop where
  | one {a : UInt8} (ha : width a = 2 ∨ width a = 3 ∨ width a = 4) : Unfinished [a]
  | two {a b : UInt8} (ha : width a = 3 ∨ width a = 4) (hb : isSecond a b = true) :
      Unfinished [a, b]
  | three {a b c : UInt8} (ha : width a = 4) (hb : isSecond a b = true)
      (hc : isContinuation c = true) : Unfinished [a, b, c]

/-- Whether these first bytes of a character may go on with this byte. -/
def goesOn : List UInt8 → UInt8 → Bool
  | [a], b => if width a = 2 then isContinuation b else isSecond a b
  | _, b => isContinuation b

theorem isContinuation_of_goesOn {p : List UInt8} {b : UInt8} (h : goesOn p b = true) :
    isContinuation b = true := by
  unfold goesOn at h
  split at h
  · split at h
    · exact h
    · exact isContinuation_iff.mpr (isSecond_iff.mp h).1
  · exact h

section Stretches

variable {p : List UInt8} (hp : Unfinished p)

include hp

theorem pieces_ending : pieces p = [.bad .ending p.length] := by
  rw [pieces.eq_def]
  cases hp with
  | one ha =>
    rcases ha with ha | ha | ha
    all_goals simp only [ha, List.length_singleton]
  | two ha hb =>
    rcases ha with ha | ha
    all_goals simp only [ha, hb, if_true, List.length_cons, List.length_nil]
  | three ha hb hc => simp only [ha, hb, hc, if_true, List.length_cons, List.length_nil]

theorem pieces_halted {b : UInt8} (hb : goesOn p b = false) (rest : List UInt8) :
    pieces (p ++ b :: rest) = .bad .continuation p.length :: pieces (b :: rest) := by
  rw [pieces.eq_def]
  cases hp with
  | one ha =>
    rcases ha with ha | ha | ha
    all_goals
      rw [goesOn, ha] at hb
      simp_all
  | two ha hsecond =>
    rw [goesOn] at hb
    rcases ha with ha | ha
    all_goals simp [ha, hsecond, hb]
  | three ha hsecond hthird =>
    simp only [goesOn] at hb
    simp [ha, hsecond, hthird, hb]

end Stretches

/-- Bytes of which the first one continues no character. -/
def Afresh (bs : List UInt8) : Prop := ∀ b ∈ bs.head?, b < 0x80 ∨ 0xBF < b

theorem not_goesOn_of_afresh {b : UInt8} {rest : List UInt8} (h : Afresh (b :: rest))
    (p : List UInt8) : goesOn p b = false := by
  rw [Bool.eq_false_iff]
  intro hgoes
  have hb := isContinuation_iff.mp (isContinuation_of_goesOn hgoes)
  have hrange := h b rfl
  simp only [UInt8.lt_iff_toNat_lt, UInt8.reduceToNat] at hrange
  omega

section Parts

variable {p rest : List UInt8} (hp : Unfinished p)

include hp

theorem shown_unfinished (hrest : Afresh rest) :
    (pieces (p ++ rest)).map Piece.shown =
      (Piece.bad .ending p.length).shown :: (pieces rest).map Piece.shown := by
  cases rest with
  | nil =>
    rw [List.append_nil, pieces_ending hp]
    rfl
  | cons b rest =>
    rw [pieces_halted hp (not_goesOn_of_afresh hrest p)]
    rfl

theorem shown_halted {b : UInt8} (hb : goesOn p b = false) {r : List UInt8} {shown : List Char}
    (ih : (pieces (b :: r ++ rest)).map Piece.shown = shown) :
    (pieces (p ++ b :: r ++ rest)).map Piece.shown =
      (Piece.bad .continuation p.length).shown :: shown := by
  rw [List.append_assoc, List.cons_append, pieces_halted hp hb, List.map_cons, ← ih]
  rfl

end Parts

/-- A cut in front of bytes that start afresh leaves no character and no flawed stretch in two. -/
theorem map_shown_append {rest : List UInt8} (hrest : Afresh rest) (bs : List UInt8) :
    (pieces (bs ++ rest)).map Piece.shown =
      (pieces bs).map Piece.shown ++ (pieces rest).map Piece.shown := by
  -- each case reads a whole character, or one in which the bytes end, or one that a byte halts
  fun_induction pieces bs with
  | case1 => rfl
  | case2 a r ha ih =>
    rw [List.cons_append, pieces_one _ ha, List.map_cons, ih]
    rfl
  | case3 a ha => exact shown_unfinished (.one (.inl ha)) hrest
  | case4 a ha b r hb ih =>
    rw [List.cons_append, List.cons_append, pieces_two _ ha hb, List.map_cons, ih]
    rfl
  | case5 a ha b r hb ih => exact shown_halted (.one (.inl ha)) (by simpa [goesOn, ha] using hb) ih
  | case6 a ha => exact shown_unfinished (.one (.inr (.inl ha))) hrest
  | case7 a ha b hb => exact shown_unfinished (.two (.inl ha) hb) hrest
  | case8 a ha b hb c r hc ih =>
    rw [List.cons_append, List.cons_append, List.cons_append, pieces_three _ ha hb hc,
      List.map_cons, ih]
    rfl
  | case9 a ha b hb c r hc ih =>
    exact shown_halted (.two (.inl ha) hb) (by simpa [goesOn] using hc) ih
  | case10 a ha b r hb ih =>
    exact shown_halted (.one (.inr (.inl ha))) (by simpa [goesOn, ha] using hb) ih
  | case11 a ha => exact shown_unfinished (.one (.inr (.inr ha))) hrest
  | case12 a ha b hb => exact shown_unfinished (.two (.inr ha) hb) hrest
  | case13 a ha b hb c hc => exact shown_unfinished (.three ha hb hc) hrest
  | case14 a ha b hb c hc d r hd ih =>
    rw [List.cons_append, List.cons_append, List.cons_append, List.cons_append,
      pieces_four _ ha hb hc hd, List.map_cons, ih]
    rfl
  | case15 a ha b hb c hc d r hd ih =>
    exact shown_halted (.three ha hb hc) (by simpa [goesOn] using hd) ih
  | case16 a ha b hb c r hc ih =>
    exact shown_halted (.two (.inr ha) hb) (by simpa [goesOn] using hc) ih
  | case17 a ha b r hb ih =>
    exact shown_halted (.one (.inr (.inr ha))) (by simpa [goesOn, ha] using hb) ih
  | case18 a r h1 h2 h3 h4 ih =>
    have hstart (bs : List UInt8) : pieces (a :: bs) = .bad .start 1 :: pieces bs := by
      rw [pieces.eq_def]
      split <;> simp_all
    rw [List.cons_append, hstart, List.map_cons, ih]
    rfl

theorem decodeLossy_append {rest : List UInt8} (hrest : Afresh rest) (bs : List UInt8) :
    decodeLossy (bs ++ rest) = decodeLossy bs ++ decodeLossy rest := by
  apply String.toList_injective
  rw [String.toList_append, toList_decodeLossy, toList_decodeLossy, toList_decodeLossy]
  exact map_shown_append hrest bs

/-- What a byte string is shown as, between quotes: the text of which these are the bytes; if there
is none, a text with a replacement character in it. What follows is shown as it is shown alone,
unless it starts with a continuation byte. -/
theorem rendered_bytes_resume (bs : List UInt8) :
    ((Value.bytes bs).rendered = Text.quote (decodeLossy bs) ∧
        (Value.buffer bs).rendered = Text.quote (decodeLossy bs)) ∧
      (∀ s, decode bs = .ok s ↔ encode s = bs) ∧
      (∀ s, decode bs = .ok s → decodeLossy bs = s) ∧
      ((∀ s, decode bs ≠ .ok s) → '\ufffd' ∈ (decodeLossy bs).toList) ∧
      ∀ rest : List UInt8, (∀ b ∈ rest.head?, b < 0x80 ∨ 0xBF < b) →
        decodeLossy (bs ++ rest) = decodeLossy bs ++ decodeLossy rest :=
  ⟨⟨rfl, rfl⟩, fun _ => decode_ok_iff, fun _ => decodeLossy_of_decode,
    replacement_mem_decodeLossy, fun _ hrest => decodeLossy_append hrest bs⟩

/-- Three of the four bytes of a character, and a letter behind them. -/
theorem rendered_bytes_resume_truncated :
    (∀ b ∈ [0x61].head?, b < 0x80 ∨ (0xBF : UInt8) < b) ∧
      decodeLossy ([0xF0, 0x9F, 0x98] ++ [0x61]) =
        decodeLossy [0xF0, 0x9F, 0x98] ++ decodeLossy [0x61] ∧
      decodeLossy [0xF0, 0x9F, 0x98] = "\ufffd" ∧ decodeLossy [0x61] = "a" := by
  have hletter : ∀ b ∈ [0x61].head?, b < 0x80 ∨ (0xBF : UInt8) < b := by simp
  refine ⟨hletter, ?_, by decide +kernel, by decide +kernel⟩
  exact (rendered_bytes_resume [0xF0, 0x9F, 0x98]).2.2.2.2 [0x61] hletter

end Detection.Utf8
