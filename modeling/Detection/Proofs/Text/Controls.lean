import Detection.Proofs.Text.Quoted

/-! # Control characters of quoted text and bare tokens

A control character keeps a text from standing bare, DEL like the others. Inside quotes all of them
are escaped but DEL, which comes out as it went in.
-/

namespace Detection.Text

def del : Char := '\x7f'

theorem isControl_iff (c : Char) : isControl c = true ↔ c.toNat < 0x20 ∨ c = del := by
  have hdel : c.toNat = 0x7F ↔ c = del := by
    constructor
    · intro h
      exact Char.toNat_inj.mp h
    · rintro rfl
      rfl
  unfold isControl
  simp only [Bool.or_eq_true, decide_eq_true_eq, hdel]

theorem filter_hexDigits : ∀ n < 0x20, (hexDigits 4 n).filter isControl = [] := by decide

theorem filter_escape (c : Char) : (escape c).filter isControl = [c].filter (· = del) := by
  unfold escape
  split
  case h_8 =>
    split
    · rename_i hlow
      have hne : c ≠ del := by
        rintro rfl
        exact absurd hlow (by decide)
      have hletters : isControl '\\' = false ∧ isControl 'u' = false := by decide
      have hdigits := filter_hexDigits c.toNat hlow
      simpa [hne, hletters] using hdigits
    · rename_i hlow
      have hcontrol : isControl c = decide (c = del) := by
        rw [Bool.eq_iff_iff, isControl_iff, decide_eq_true_eq, or_iff_right hlow]
      simp only [List.filter_cons, List.filter_nil, hcontrol]
  all_goals rfl

theorem filter_quote (s : String) :
    (quote s).toList.filter isControl = s.toList.filter (· = del) := by
  have hchars : (s.toList.flatMap escape).filter isControl = s.toList.filter (· = del) := by
    induction s.toList with
    | nil => rfl
    | cons c cs ih =>
      rw [List.flatMap_cons, List.filter_append, filter_escape, ih, ← List.filter_append]
      rfl
  have hquote : isControl '"' = false := rfl
  rw [toList_quote]
  simp [List.filter_append, hchars, hquote]

theorem filter_bare (s : String) :
    (bare s).toList.filter isControl = s.toList.filter (· = del) := by
  rcases bare_cases s with hquote | ⟨hself, -, hchars⟩
  · rw [hquote]
    exact filter_quote s
  · have hcontrol : ∀ c ∈ s.toList, isControl c = false := by
      intro c hc
      have hsafe := hchars c hc
      simp only [breaksToken, Bool.or_eq_false_iff] at hsafe
      exact hsafe.2
    have hdel : ∀ c ∈ s.toList, c ≠ del := by
      rintro c hc rfl
      exact absurd (hcontrol _ hc) (by decide)
    rw [hself, List.filter_eq_nil_iff.mpr (by simpa using hcontrol),
      List.filter_eq_nil_iff.mpr (by simpa using hdel)]

/-- Of the control characters of a text just DEL is left when it is quoted, and when it is made a
bare token, each time that it stands in the text. So both are free of control characters exactly
where the text has no DEL. -/
theorem controls_escaped_iff (s : String) :
    (quote s).toList.filter isControl = s.toList.filter (· = del) ∧
      (bare s).toList.filter isControl = s.toList.filter (· = del) ∧
      ((∀ c ∈ (quote s).toList, isControl c = false) ↔ del ∉ s.toList) ∧
      ((∀ c ∈ (bare s).toList, isControl c = false) ↔ del ∉ s.toList) := by
  have hfree {t : String} (h : t.toList.filter isControl = s.toList.filter (· = del)) :
      (∀ c ∈ t.toList, isControl c = false) ↔ del ∉ s.toList := by
    have hnil : t.toList.filter isControl = [] ↔ s.toList.filter (· = del) = [] := by rw [h]
    simpa [List.filter_eq_nil_iff, List.forall_mem_ne'] using hnil
  exact ⟨filter_quote s, filter_bare s, hfree (filter_quote s), hfree (filter_bare s)⟩

/-- A text with DEL is not taken bare, and DEL stands unescaped inside the quotes. -/
theorem del_unescaped :
    isControl del = true ∧ del ∈ (quote "\x7f").toList ∧
      bare "a\x7f" = quote "a\x7f" ∧ del ∈ (bare "a\x7f").toList := by
  decide

end Detection.Text
