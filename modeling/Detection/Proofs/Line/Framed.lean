import Detection.Line

/-! # Text that can stand in a pair

A reader of a line takes a space outside of double quotes for the end of a text. A text is framed when
it has no such space and closes its quotes, and unbroken when no character in it ends the line.
-/

namespace Detection

/-! ## Quotes -/

/-- Where a reader of a line stands. -/
inductive Quotes where
  | outside
  | inside
  /-- Inside, behind a backslash. -/
  | escaped
  deriving DecidableEq, Repr

namespace Quotes

def step (q : Quotes) (c : Char) : Quotes :=
  match q with
  | .outside => if c = '"' then .inside else .outside
  | .inside => if c = '"' then .outside else if c = '\\' then .escaped else .inside
  | .escaped => .inside

/-- Where a reader stands behind these characters, unless one of them is a space outside of quotes. -/
def through (q : Quotes) : List Char → Option Quotes
  | [] => some q
  | c :: cs => if q = .outside ∧ c = ' ' then none else (q.step c).through cs

def settled : Quotes → Quotes
  | .outside => .outside
  | .inside | .escaped => .inside

@[simp] theorem through_nil (q : Quotes) : q.through [] = some q := rfl

theorem through_append (q : Quotes) (cs ds : List Char) :
    q.through (cs ++ ds) = (q.through cs).bind (·.through ds) := by
  induction cs generalizing q with
  | nil => rfl
  | cons c cs ih =>
    simp only [List.cons_append, through]
    split
    · rfl
    · exact ih (q.step c)

@[simp] theorem settled_settled (q : Quotes) : q.settled.settled = q.settled := by cases q <;> rfl

theorem settled_eq_outside {q : Quotes} : q.settled = .outside ↔ q = .outside := by
  cases q <;> simp [settled]

end Quotes

/-! ## Inert characters -/

/-- A character that no reader stops at: visible, no quote and no backslash. -/
def isInert (c : Char) : Bool := 0x20 < c.toNat && c ≠ '"' && c ≠ '\\'

def Inert (cs : List Char) : Prop := ∀ c ∈ cs, isInert c = true

instance (cs : List Char) : Decidable (Inert cs) := List.decidableBAll _ cs

@[simp] theorem inert_nil : Inert [] := by simp [Inert]

@[simp] theorem inert_cons {c : Char} {cs : List Char} :
    Inert (c :: cs) ↔ isInert c = true ∧ Inert cs := by simp [Inert]

@[simp] theorem inert_append {cs ds : List Char} : Inert (cs ++ ds) ↔ Inert cs ∧ Inert ds := by
  simp only [Inert, List.forall_mem_append]

theorem Inert.subset {cs ds : List Char} (h : Inert ds) (hs : cs ⊆ ds) : Inert cs :=
  fun c hc => h c (hs hc)

theorem inert_replicate (n : Nat) {c : Char} (h : isInert c = true) :
    Inert (List.replicate n c) := by
  intro d hd
  rwa [List.eq_of_mem_replicate hd]

theorem inert_join {sep : List Char} {parts : List (List Char)} (hsep : Inert sep)
    (h : ∀ p ∈ parts, Inert p) : Inert (Text.join sep parts) := by
  induction parts using Text.join.induct with
  | case1 => exact inert_nil
  | case2 p => exact h p List.mem_cons_self
  | case3 p q ps ih =>
    rw [Text.join]
    simp only [inert_append]
    exact ⟨⟨h p List.mem_cons_self, hsep⟩, ih fun r hr => h r (List.mem_cons_of_mem _ hr)⟩

theorem step_inert (q : Quotes) {c : Char} (h : isInert c = true) : q.step c = q.settled := by
  simp only [isInert, Bool.and_eq_true, decide_eq_true_eq] at h
  cases q <;> simp [Quotes.step, Quotes.settled, h]

theorem ne_space_of_inert {c : Char} (h : isInert c = true) : c ≠ ' ' := by
  rintro rfl
  cases h

theorem through_inert_cons (q : Quotes) {c : Char} {cs : List Char} (h : Inert (c :: cs)) :
    q.through (c :: cs) = some q.settled := by
  induction cs generalizing q c with
  | nil =>
    obtain ⟨hc, -⟩ := inert_cons.mp h
    simp [Quotes.through, ne_space_of_inert hc, step_inert q hc]
  | cons d ds ih =>
    obtain ⟨hc, hds⟩ := inert_cons.mp h
    rw [Quotes.through, if_neg fun hsp => ne_space_of_inert hc hsp.2, step_inert q hc, ih _ hds,
      Quotes.settled_settled]

/-- Inert characters leave a reader where it stands, but for an escape they end. -/
theorem through_inert {q : Quotes} (hq : q ≠ .escaped) {cs : List Char} (h : Inert cs) :
    q.through cs = some q := by
  cases cs with
  | nil => rfl
  | cons c cs =>
    rw [through_inert_cons q h]
    cases q <;> first | rfl | contradiction

/-! ## Framed and unbroken text -/

/-- No space outside of quotes, and no quote left open. -/
def Framed (cs : List Char) : Prop := Quotes.outside.through cs = some .outside

def Unbroken (cs : List Char) : Prop := ∀ c ∈ cs, Syslog.breaksLine c = false

instance (cs : List Char) : Decidable (Framed cs) := inferInstanceAs (Decidable (_ = _))

instance (cs : List Char) : Decidable (Unbroken cs) := List.decidableBAll _ cs

@[simp] theorem unbroken_nil : Unbroken [] := by simp [Unbroken]

@[simp] theorem unbroken_cons {c : Char} {cs : List Char} :
    Unbroken (c :: cs) ↔ Syslog.breaksLine c = false ∧ Unbroken cs := by simp [Unbroken]

@[simp] theorem unbroken_append {cs ds : List Char} :
    Unbroken (cs ++ ds) ↔ Unbroken cs ∧ Unbroken ds := by
  simp only [Unbroken, List.forall_mem_append]

/-- Both: the text neither ends its pair nor its line. -/
structure Sealed (cs : List Char) : Prop where
  framed : Framed cs
  unbroken : Unbroken cs

theorem breaksLine_of_le {c : Char} (h : 0x20 ≤ c.toNat) : Syslog.breaksLine c = false := by
  simp only [Syslog.breaksLine, Bool.or_eq_false_iff, decide_eq_false_iff_not]
  refine ⟨⟨?_, ?_⟩, ?_⟩
  all_goals
    rintro rfl
    exact absurd h (by decide)

theorem Inert.unbroken {cs : List Char} (h : Inert cs) : Unbroken cs := by
  intro c hc
  have hinert := h c hc
  simp only [isInert, Bool.and_eq_true, decide_eq_true_eq] at hinert
  exact breaksLine_of_le (Nat.le_of_lt hinert.1.1)

theorem Inert.sealed {cs : List Char} (h : Inert cs) : Sealed cs :=
  ⟨through_inert (by simp) h, h.unbroken⟩

theorem Framed.append {cs ds : List Char} (hcs : Framed cs) (hds : Framed ds) :
    Framed (cs ++ ds) := by
  rw [Framed, Quotes.through_append, hcs]
  exact hds

theorem Sealed.append {cs ds : List Char} (hcs : Sealed cs) (hds : Sealed ds) :
    Sealed (cs ++ ds) :=
  ⟨hcs.framed.append hds.framed, unbroken_append.mpr ⟨hcs.unbroken, hds.unbroken⟩⟩

theorem sealed_join {sep : List Char} {parts : List (List Char)} (hsep : Sealed sep)
    (h : ∀ p ∈ parts, Sealed p) : Sealed (Text.join sep parts) := by
  induction parts using Text.join.induct with
  | case1 => exact inert_nil.sealed
  | case2 p => exact h p List.mem_cons_self
  | case3 p q ps ih =>
    have hrest := ih fun r hr => h r (List.mem_cons_of_mem _ hr)
    exact ((h p List.mem_cons_self).append hsep).append hrest

/-! ## Quoting -/

theorem inert_digitChar (n : Nat) : isInert (Nat.digitChar n) = true := by
  rcases Nat.lt_or_ge n 16 with hn | hn
  · revert n
    decide
  · unfold Nat.digitChar
    repeat rw [if_neg (by omega)]
    rfl

theorem inert_toDigitsCore (base fuel n : Nat) {ds : List Char} (h : Inert ds) :
    Inert (Nat.toDigitsCore base fuel n ds) := by
  induction fuel generalizing n ds with
  | zero => exact h
  | succ fuel ih =>
    rw [Nat.toDigitsCore]
    split
    · exact inert_cons.mpr ⟨inert_digitChar _, h⟩
    · exact ih _ (inert_cons.mpr ⟨inert_digitChar _, h⟩)

theorem inert_toDigits (base n : Nat) : Inert (Nat.toDigits base n) :=
  inert_toDigitsCore base _ n inert_nil

theorem inert_hexDigits (width n : Nat) : Inert (Text.hexDigits width n) :=
  inert_append.mpr ⟨inert_replicate _ rfl, inert_toDigits 16 n⟩

theorem through_escape (c : Char) : Quotes.inside.through (Text.escape c) = some .inside := by
  unfold Text.escape
  split
  case h_8 hquote hbackslash _ _ _ _ _ =>
    split
    · -- the escaped character is the letter; the digits are inside again
      show Quotes.inside.through (Text.hexDigits 4 c.toNat) = some .inside
      exact through_inert (by simp) (inert_hexDigits 4 _)
    · have hq : c ≠ '"' := hquote
      have hb : c ≠ '\\' := hbackslash
      simp [Quotes.through, Quotes.step, hq, hb]
  all_goals rfl

theorem unbroken_escape (c : Char) : Unbroken (Text.escape c) := by
  unfold Text.escape
  split
  case h_8 =>
    split
    · simp only [unbroken_cons]
      exact ⟨by decide, by decide, (inert_hexDigits 4 _).unbroken⟩
    · rename_i hc
      exact unbroken_cons.mpr ⟨breaksLine_of_le (Nat.le_of_not_lt hc), unbroken_nil⟩
  all_goals decide

theorem through_flatMap_escape (cs : List Char) :
    Quotes.inside.through (cs.flatMap Text.escape) = some .inside := by
  induction cs with
  | nil => rfl
  | cons c cs ih =>
    rw [List.flatMap_cons, Quotes.through_append, through_escape]
    exact ih

theorem sealed_quote (s : String) : Sealed (Text.quote s).toList := by
  rw [Text.quote, String.toList_ofList, Text.quoteChars]
  constructor
  · have hbody := through_flatMap_escape s.toList
    show Quotes.inside.through (s.toList.flatMap Text.escape ++ ['"']) = some .outside
    rw [Quotes.through_append, hbody]
    rfl
  · have hbody : Unbroken (s.toList.flatMap Text.escape) := by
      intro c hc
      obtain ⟨d, -, hd⟩ := List.mem_flatMap.mp hc
      exact unbroken_escape d c hd
    rw [List.cons_append, unbroken_cons, unbroken_append]
    exact ⟨by decide, hbody, by decide⟩

/-! ## Bare tokens -/

theorem through_outside {cs : List Char} (h : ∀ c ∈ cs, c ≠ ' ' ∧ c ≠ '"') : Framed cs := by
  induction cs with
  | nil => rfl
  | cons c cs ih =>
    obtain ⟨⟨hspace, hquote⟩, hrest⟩ := List.forall_mem_cons.mp h
    have hstep : Quotes.outside.step c = .outside := if_neg hquote
    rw [Framed, Quotes.through, if_neg fun hs => hspace hs.2, hstep]
    exact ih hrest

theorem sealed_bare (s : String) : Sealed (Text.bare s).toList := by
  rcases Text.bare_cases s with hquote | ⟨hself, -, hchars⟩
  · rw [hquote]
    exact sealed_quote s
  · rw [hself]
    constructor
    · apply through_outside
      intro c hc
      have hcsafe := hchars c hc
      constructor
      · rintro rfl
        exact absurd hcsafe (by decide)
      · rintro rfl
        exact absurd hcsafe (by decide)
    · intro c hc
      have hcsafe := hchars c hc
      simp only [Text.breaksToken, Text.isControl, Bool.or_eq_false_iff,
        decide_eq_false_iff_not] at hcsafe
      exact breaksLine_of_le (Nat.le_of_not_lt hcsafe.2.1)

end Detection
