import Detection.Proofs.Json.Strings

/-! # Quoted text and bare tokens read back

Quoted text is a string of a document: a reader of strings stops at its last quote, whatever stands
behind it. A bare token reads the same way where it starts with a quote, and is the text itself
where it does not.
-/

namespace Detection

/-! ## Strings in front of a text -/

namespace Json

/-- The string a text starts with, and what is behind it. -/
def text? (d : Dialect) : List Char → Option (String × List Char)
  | '"' :: cs =>
    match string d cs with
    | .ok (points, rest) =>
      match ofPoints points with
      | .text s => some (s, rest)
      | _ => none
    | .error _ => none
  | _ => none

theorem readsAs_char (d : Dialect) (c : Char) : ReadsAs d (Text.escape c) c.toNat := by
  unfold Text.escape
  split
  case h_8 hquote hslash _ _ _ _ _ =>
    split
    · rename_i hcontrol
      have hplain : isSurrogate c.toNat = false := by
        rw [isSurrogate_eq_false_iff]
        omega
      exact readsAs_unitEscape d (by omega) hplain
    · rename_i hvisible
      exact readsAs_self d hquote hslash (Nat.le_of_not_lt hvisible)
  all_goals exact fun opened fuel rest _ => stringPoints_escaped d opened fuel rfl

theorem string_escaped (d : Dialect) (s : String) (rest : List Char) :
    string d (s.toList.flatMap Text.escape ++ '"' :: rest) = .ok (s.toList.map Char.toNat, rest) :=
  string_flatMap (fun c _ => readsAs_char d c) rest

end Json

namespace Text

/-! ## Quoted text -/

theorem toList_quote (s : String) : (quote s).toList = '"' :: (s.toList.flatMap escape ++ ['"']) :=
  String.toList_ofList

theorem text?_quote (d : Json.Dialect) (s : String) (rest : List Char) :
    Json.text? d ((quote s).toList ++ rest) = some (s, rest) := by
  rw [toList_quote, List.cons_append, List.append_assoc, List.singleton_append, Json.text?,
    Json.string_escaped d s rest]
  simp only [Json.ofPoints_text]

theorem quote_injective {s t : String} (h : quote s = quote t) : s = t := by
  have hs := text?_quote .file s []
  rw [h, text?_quote .file t []] at hs
  cases hs
  rfl

/-! ## Bare tokens -/

theorem head?_bare (s : String) : (bare s).toList.head? = some '"' ↔ bare s = quote s := by
  constructor
  · intro hhead
    rcases bare_cases s with hquote | ⟨hself, -, hchars⟩
    · exact hquote
    · rw [hself] at hhead
      exact absurd (hchars '"' (List.mem_of_head? hhead)) (by decide)
  · intro hquote
    rw [hquote, toList_quote]
    rfl

theorem bare_injective {s t : String} (h : bare s = bare t) : s = t := by
  by_cases hquote : (bare s).toList.head? = some '"'
  · have hs := (head?_bare s).mp hquote
    have ht := (head?_bare t).mp (h ▸ hquote)
    exact quote_injective (hs.symm.trans (h.trans ht))
  · have hself {u : String} (hu : (bare u).toList.head? ≠ some '"') : bare u = u :=
      ((bare_cases u).resolve_left fun hq => hu ((head?_bare u).mpr hq)).1
    exact (hself hquote).symm.trans (h.trans (hself (h ▸ hquote)))

/-- Quoted text reads back as the text and leaves what is behind it. What is made of a text to stand
as one token reads back where it starts with a quote; otherwise it is the text, in which nothing
ends a token. Either way no other text gives the same token. -/
theorem quote_bare_readBack (s : String) :
    (∀ d rest, Json.text? d ((quote s).toList ++ rest) = some (s, rest)) ∧
      (if (bare s).toList.head? = some '"' then ∀ d, Json.text? d (bare s).toList = some (s, [])
        else bare s = s ∧ s ≠ "" ∧ ∀ c ∈ s.toList, isBlank c = false ∧ c ≠ '"' ∧ c ≠ '=' ∧
          isControl c = false) ∧
      ∀ t, bare t = bare s ↔ t = s := by
  refine ⟨fun d rest => text?_quote d s rest, ?_, fun t => ⟨bare_injective, congrArg bare⟩⟩
  split
  · rename_i hquote
    intro d
    have hread := text?_quote d s []
    rwa [List.append_nil, ← (head?_bare s).mp hquote] at hread
  · rename_i hquote
    obtain ⟨hself, hne, hchars⟩ :=
      (bare_cases s).resolve_left fun hq => hquote ((head?_bare s).mpr hq)
    refine ⟨hself, hne, fun c hc => ?_⟩
    simpa [breaksToken, and_assoc] using hchars c hc

end Text

end Detection
