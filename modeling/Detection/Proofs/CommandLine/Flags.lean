import Detection.Proofs.Success
import Detection.CommandLine.Request

/-! # Command lines that differ in flags

How much a run tells, and whether there are colours, is asked for by words that say nothing else. A
command line that is accepted asks for the same without them.
-/

namespace Detection.CommandLine

/-- What is asked for but for how much is told and whether there are colours. -/
def Request.unadorned (r : Request) : Request :=
  { r with color := none, verbose := false, quiet := false }

theorem Request.view_eq {α : Type} {r r' : Request} (h : r.unadorned = r'.unadorned)
    (view : Request → α) (hview : ∀ r : Request, view r.unadorned = view r) : view r = view r' := by
  rw [← hview r, h, hview]

/-- Both call for help, both are refused, or both ask for the same but for flags. -/
inductive Outcome.Alike : Outcome → Outcome → Prop
  | help : Alike .help .help
  | refused (cause cause' : Refusal) : Alike (.refused cause) (.refused cause')
  | request {r r' : Request} (h : r.unadorned = r'.unadorned) : Alike (.request r) (.request r')

/-! ## Words that are flags -/

def Switch.isFlag : Switch → Bool
  | .color | .verbose | .quiet => true
  | _ => false

def Bundle.isFlag (b : Bundle) : Bool :=
  b.open?.isNone && b.left.isNone && b.uses.all (·.1.switch.isFlag)

def Word.isFlag : Word → Bool
  | .switch n rest => (bundle n rest).toOption.any Bundle.isFlag
  | _ => false

def isFlag (text : String) : Bool := (Word.ofText text).toOption.any Word.isFlag

/-- A command line without its flags. Behind a mark no word is one. -/
def withoutFlags : List String → List String
  | [] => []
  | w :: ws =>
    if w = "--" then w :: ws
    else if isFlag w then withoutFlags ws
    else w :: withoutFlags ws

/-! ## Granting wishes -/

theorem change_unadorned {n : Named} {value : String} {change : Request → Request}
    (h : wish n value = .ok (.set change)) {r r' : Request} (hr : r.unadorned = r'.unadorned) :
    (change r).unadorned = (change r').unadorned := by
  simp only [Request.unadorned, Request.mk.injEq] at hr
  unfold wish at h
  split at h
  all_goals (try split at h)
  all_goals cases h
  all_goals simp [Request.unadorned, hr]

theorem grant_unadorned {uses : List (Named × String)} {r r' q : Request}
    (hr : r.unadorned = r'.unadorned) (h : grant r uses = .ok q) :
    ∃ q', grant r' uses = .ok q' ∧ q.unadorned = q'.unadorned := by
  induction uses generalizing r r' with
  | nil =>
    cases h
    exact ⟨r', rfl, hr⟩
  | cons use uses ih =>
    obtain ⟨n, value⟩ := use
    rw [grant] at h ⊢
    cases hwish : wish n value with
    | error cause =>
      rw [hwish] at h
      cases h
    | ok w =>
      rw [hwish] at h
      cases w with
      | help => cases h
      | set change => exact ih (change_unadorned hwish hr) h

theorem grant_flags {uses : List (Named × String)}
    (h : uses.all (·.1.switch.isFlag) = true) {r q : Request} (hgrant : grant r uses = .ok q) :
    q.unadorned = r.unadorned := by
  induction uses generalizing r with
  | nil =>
    cases hgrant
    rfl
  | cons use uses ih =>
    obtain ⟨⟨s, name⟩, value⟩ := use
    rw [List.all_cons, Bool.and_eq_true] at h
    cases s with
    | color | verbose | quiet => exact (ih h.2 hgrant).trans rfl
    | _ => cases h.1

/-! ## Reading -/

/-- Behind a mark all words are plain. -/
def Marked : List Word → Prop
  | [] => True
  | .mark :: ws => ∀ w ∈ ws, ∃ text, w = .plain text
  | _ :: ws => Marked ws

theorem marked_of_plain {ws : List Word} (h : ∀ w ∈ ws, ∃ text, w = .plain text) : Marked ws := by
  induction ws with
  | nil => trivial
  | cons w ws ih =>
    obtain ⟨⟨text, rfl⟩, hws⟩ := List.forall_mem_cons.mp h
    exact ih hws

theorem Marked.of_cons {w : Word} {ws : List Word} (h : Marked (w :: ws)) : Marked ws := by
  cases w with
  | mark => exact marked_of_plain h
  | plain text => exact h
  | switch n rest => exact h
  | unknown text => exact h

theorem ofText_ne_mark {text : String} {w : Word} (h : Word.ofText text = .ok w) : w ≠ .mark := by
  have hreadings {before : List Char} {after : Option (List Char)} {cs : List Char} :
      .mark ∉ readings before after cs := by
    unfold readings
    split <;> simp
  rintro rfl
  unfold Word.ofText at h
  split at h
  · split at h
    · cases h
    · simp only at h
      split at h
      · cases h
      · split at h
        · rename_i hw
          cases h
          exact hreadings (hw ▸ List.mem_singleton_self _)
        · split at h <;> cases h
        · cases h
  · cases h

theorem words_marked {args : List String} {ws : List Word} (h : words args = .ok ws) :
    Marked ws := by
  induction args generalizing ws with
  | nil =>
    cases h
    trivial
  | cons w args ih =>
    rw [words] at h
    split at h
    · cases h
      intro w hw
      obtain ⟨text, -, rfl⟩ := List.mem_map.mp hw
      exact ⟨text, rfl⟩
    · obtain ⟨first, hfirst, h⟩ := bind_ok.mp h
      obtain ⟨others, hothers, h⟩ := bind_ok.mp h
      cases h
      have hmarked := ih hothers
      cases first with
      | mark => exact absurd rfl (ofText_ne_mark hfirst)
      | plain text => exact hmarked
      | switch n rest => exact hmarked
      | unknown text => exact hmarked

theorem words_withoutFlags {args : List String} {ws : List Word} (h : words args = .ok ws) :
    words (withoutFlags args) = .ok (ws.filter (!·.isFlag)) := by
  induction args generalizing ws with
  | nil =>
    cases h
    rfl
  | cons w args ih =>
    rw [words] at h
    rw [withoutFlags]
    split at h
    · rw [if_pos ‹_›, words, if_pos ‹_›]
      cases h
      have hplain : ∀ w ∈ Word.mark :: args.map .plain, (!w.isFlag) = true := by
        simp [Word.isFlag]
      rw [List.filter_eq_self.mpr hplain]
    · rw [if_neg ‹_›]
      obtain ⟨first, hfirst, h⟩ := bind_ok.mp h
      obtain ⟨others, hothers, h⟩ := bind_ok.mp h
      cases h
      have hflag : isFlag w = first.isFlag := by
        rw [isFlag, hfirst]
        rfl
      rw [hflag, List.filter_cons]
      cases first.isFlag with
      | true => exact ih hothers
      | false =>
        rw [if_neg Bool.false_ne_true, words, if_neg ‹_›, hfirst]
        exact congrArg (· >>= fun others => pure (first :: others)) (ih hothers)

theorem grant_error {uses : List (Named × String)} {r : Request} {o : Outcome}
    (h : grant r uses = .error o) (q : Request) : o ≠ .request q := by
  induction uses generalizing r with
  | nil => cases h
  | cons use uses ih =>
    rw [grant] at h
    split at h
    · cases h
      nofun
    · cases h
      nofun
    · exact ih h

theorem read_error {r : Request} {named : Bool} {left : List String} {ws : List Word} {o : Outcome}
    (h : read r named left ws = .error o) (q : Request) : o ≠ .request q := by
  have hgranted {r : Request} {uses : List (Named × String)}
      {next : Request → Except Outcome Request}
      (hnext : ∀ r, next r = .error o → o ≠ .request q) (h : grant r uses >>= next = .error o) :
      o ≠ .request q := by
    rcases bind_error.mp h with h | ⟨r, -, h⟩
    · exact grant_error h q
    · exact hnext r h
  fun_induction read r named left ws
  case case1 => cases h
  case case2 | case11 | case14 =>
    cases h
    nofun
  case case12 ih | case13 ih => exact hgranted ih h
  all_goals
    rename_i ih
    exact ih h

/-- Where a command line is accepted, all of its words have a meaning, and no mark stands behind the
name of the events file but right there. -/
theorem read_ok {r q : Request} {named : Bool} {left : List String} {ws : List Word}
    (h : read r named left ws = .ok q) : left = [] ∧ (named = true → Word.mark ∉ ws) := by
  fun_induction read r named left ws
  case case1 hleft => exact ⟨List.isEmpty_iff.mp hleft, fun _ => List.not_mem_nil⟩
  case case2 => cases h
  case case3 ih => simpa using (ih h).1
  case case4 ih => simpa using (ih h).1
  case case5 hnamed ih => exact ⟨(ih h).1, fun hn => absurd hn hnamed⟩
  case case6 r named left ws _ ih =>
    cases named with
    | true => simpa using (ih h).1
    | false => exact ⟨(ih h).1, nofun⟩
  case case7 ih => simpa using (ih h).1
  case case8 hnamed ih => exact ⟨(ih h).1, fun hn => absurd hn hnamed⟩
  case case9 ih => simpa using (ih h).1
  case case10 hnamed ih => exact ⟨(ih h).1, fun hn => absurd hn hnamed⟩
  case case11 => cases h
  case case12 ih =>
    obtain ⟨r, -, h⟩ := bind_ok.mp h
    obtain ⟨hleft, hmark⟩ := ih r h
    exact ⟨(List.append_eq_nil_iff.mp hleft).1, fun hn => by simpa using hmark hn⟩
  case case13 ih =>
    obtain ⟨r, -, h⟩ := bind_ok.mp h
    obtain ⟨hleft, hmark⟩ := ih r h
    exact ⟨(List.append_eq_nil_iff.mp hleft).1, fun hn => by simpa using hmark hn⟩
  case case14 => cases h

theorem read_plain (r : Request) (left : List String) (text : String) {ws : List Word}
    (h : Word.mark ∉ ws) :
    read r false left (.plain text :: ws) =
      read { r with eventsFile := some text } true left ws := by
  cases ws with
  | nil => rfl
  | cons w ws =>
    cases w with
    | mark => exact absurd List.mem_cons_self h
    | _ => rfl

section Switch

variable {n : Named} {rest : Rest} {b : Bundle} (hb : bundle n rest = .ok b) (r : Request)
  (named : Bool) (left : List String)
include hb

theorem read_switch (hopen : b.open? = none) (ws : List Word) :
    read r named left (.switch n rest :: ws) =
      grant r b.uses >>= fun r => read r named (left ++ b.left.toList) ws := by
  rw [read]
  simp only [hb, hopen]

theorem read_switch_value {last : Named} (hopen : b.open? = some last) (value : String)
    (ws : List Word) :
    read r named left (.switch n rest :: .plain value :: ws) =
      grant r (b.uses ++ [(last, value)]) >>= fun r => read r named (left ++ b.left.toList) ws := by
  rw [read]
  simp only [hb, hopen]

theorem isFlag_switch : (Word.switch n rest).isFlag = b.isFlag := by
  rw [Word.isFlag, hb]
  rfl

end Switch

theorem read_withoutFlags {r r' q : Request} {named : Bool} {left : List String} {ws : List Word}
    (hr : r.unadorned = r'.unadorned) (hmarked : Marked ws) (h : read r named left ws = .ok q) :
    ∃ q', read r' named left (ws.filter (!·.isFlag)) = .ok q' ∧ q.unadorned = q'.unadorned := by
  have hnamed {r r' : Request} (hr : r.unadorned = r'.unadorned) (text : String) :
      { r with eventsFile := some text }.unadorned =
        { r' with eventsFile := some text }.unadorned := by
    simp only [Request.unadorned, Request.mk.injEq] at hr ⊢
    simp [hr]
  -- along the reader, whose request may by then differ in what flags grant
  fun_induction read r named left ws generalizing r'
  case case1 r named left hleft =>
    cases h
    exact ⟨r', by rw [List.filter_nil, read, if_pos hleft], hr⟩
  case case2 => cases h
  case case3 => simpa using (read_ok h).1
  case case4 => simpa using (read_ok h).1
  case case5 r named left text ws hfirst ih =>
    rw [Bool.not_eq_true] at hfirst
    subst hfirst
    exact ih (hnamed hr text) hmarked.of_cons.of_cons h
  case case6 r named left ws hplain ih =>
    cases named with
    | true => simpa using (read_ok h).1
    | false =>
      cases ws with
      | nil => exact ih hr trivial h
      | cons w ws =>
        obtain ⟨text, rfl⟩ := hmarked w List.mem_cons_self
        exact absurd rfl (hplain text ws)
  case case7 => simpa using (read_ok h).1
  case case8 r named left text ws hfirst ih =>
    rw [Bool.not_eq_true] at hfirst
    subst hfirst
    exact ih (hnamed hr text) hmarked.of_cons.of_cons h
  case case9 => simpa using (read_ok h).1
  case case10 r named left text ws _ hfirst ih =>
    rw [Bool.not_eq_true] at hfirst
    subst hfirst
    -- with flags gone, a mark could stand right behind the name, where it would be taken along
    have hmark : Word.mark ∉ ws.filter (!·.isFlag) := fun hmem =>
      (read_ok h).2 rfl (List.mem_filter.mp hmem).1
    rw [List.filter_cons_of_pos (by rfl), read_plain r' left text hmark]
    exact ih (hnamed hr text) hmarked.of_cons h
  case case11 => cases h
  case case12 r named left n rest b hb left' ws hopen ih =>
    obtain ⟨r₁, hgrant, h⟩ := bind_ok.mp h
    rw [List.filter_cons, isFlag_switch hb]
    cases hflag : b.isFlag with
    | true =>
      -- this word goes, and what it grants shows in flags alone
      simp only [Bundle.isFlag, Bool.and_eq_true, Option.isNone_iff_eq_none] at hflag
      obtain ⟨⟨-, hleft⟩, huses⟩ := hflag
      have hread := ih r₁ ((grant_flags huses hgrant).trans hr) hmarked.of_cons h
      have hsame : left' = left := by simp [left', hleft]
      rw [hsame] at hread
      exact hread
    | false =>
      obtain ⟨r₂, hgrant', hr₂⟩ := grant_unadorned hr hgrant
      rw [Bool.not_false, if_pos rfl, read_switch hb _ _ _ hopen, hgrant']
      exact ih r₁ hr₂ hmarked.of_cons h
  case case13 r named left n rest b hb _ last value ws hopen ih =>
    obtain ⟨r₁, hgrant, h⟩ := bind_ok.mp h
    obtain ⟨r₂, hgrant', hr₂⟩ := grant_unadorned hr hgrant
    have hflag : b.isFlag = false := by
      rw [Bundle.isFlag, hopen]
      rfl
    rw [List.filter_cons_of_pos (by rw [isFlag_switch hb, hflag]; rfl),
      List.filter_cons_of_pos (by rfl), read_switch_value hb _ _ _ hopen, hgrant']
    exact ih r₁ hr₂ hmarked.of_cons.of_cons h
  case case14 => cases h

/-- A command line that is accepted is accepted without its flags, and asks for the same. -/
theorem accepted_withoutFlags {args : List String} {r : Request}
    (h : Outcome.ofArguments args = .request r) :
    ∃ q, Outcome.ofArguments (withoutFlags args) = .request q ∧ r.unadorned = q.unadorned := by
  unfold Outcome.ofArguments at h
  split at h
  · cases h
  · rename_i ws hws
    split at h
    · rename_i q hq
      cases h
      obtain ⟨q', hq', hsame⟩ := read_withoutFlags rfl (words_marked hws) hq
      refine ⟨q', ?_, hsame⟩
      simp only [Outcome.ofArguments, words_withoutFlags hws, hq']
    · rename_i o herror
      exact absurd h (read_error herror r)

theorem alike_of_withoutFlags {args args' : List String} {r r' : Request}
    (h : Outcome.ofArguments args = .request r) (h' : Outcome.ofArguments args' = .request r')
    (hsame : withoutFlags args = withoutFlags args') :
    (Outcome.ofArguments args).Alike (Outcome.ofArguments args') := by
  obtain ⟨q, hq, hr⟩ := accepted_withoutFlags h
  obtain ⟨q', hq', hr'⟩ := accepted_withoutFlags h'
  rw [hsame, hq'] at hq
  cases hq
  rw [h, h']
  exact .request (hr.trans hr'.symm)

end Detection.CommandLine
