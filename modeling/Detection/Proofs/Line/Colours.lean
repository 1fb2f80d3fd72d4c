import Detection.Terminal
import Detection.Proofs.Line.OneLine

/-! # Coloured lines where no terminal shows them

A display line begins with the name of its kind, and its colours stand around that name. Without
their codes the line leaves what it leaves without colours.
-/

namespace Detection

namespace Terminal

/-- No code begins with this character, and none ends behind it. -/
def isPlain (c : Char) : Bool := c ≠ '\x01' && c ≠ '\x02' && c ≠ '\x1b'

variable {c : Char} {cs ns r : List Char}

theorem isPlain_iff : isPlain c = true ↔ c ≠ '\x01' ∧ c ≠ '\x02' ∧ c ≠ '\x1b' := by
  simp [isPlain, and_assoc]

theorem isPlain_of_isInert (h : isInert c = true) : isPlain c = true := by
  rw [isPlain_iff]
  refine ⟨?_, ?_, ?_⟩ <;>
  · rintro rfl
    revert h
    decide

theorem dropOne_of_head? {x : Char} (h : cs.head? ≠ some x) : dropOne x cs = cs := by
  cases cs with
  | nil => rfl
  | cons c cs =>
    rw [dropOne, if_neg]
    rintro rfl
    exact h rfl

theorem afterControl?_plain (h : isPlain c = true) (r : List Char) :
    afterControl? (c :: r) = none := by
  obtain ⟨hstart, -, hescape⟩ := isPlain_iff.mp h
  unfold afterControl?
  rw [dropOne_of_head? (by simpa using hstart)]
  split
  · rename_i heq
    exact absurd (List.cons.inj heq).1 hescape
  · rfl

theorem command?_plain (h : isPlain c = true) (r : List Char) : command? (c :: r) = none := by
  obtain ⟨hstart, -, hescape⟩ := isPlain_iff.mp h
  unfold command?
  rw [dropOne_of_head? (by simpa using hstart)]
  split
  · rename_i heq
    exact absurd (List.cons.inj heq).1 hescape
  · rfl

theorem withoutControls_skip (cs r : List Char) :
    withoutControls cs.length (cs ++ r) = withoutControls 0 r := by
  induction cs with
  | nil => rfl
  | cons c cs ih => exact ih

theorem commands_plain (h : ∀ c ∈ ns, isPlain c = true) (place : Nat) (r : List Char) :
    commands place 0 (ns ++ r) = commands (place + ns.length) 0 r := by
  induction ns generalizing place with
  | nil => rfl
  | cons c ns ih =>
    obtain ⟨hc, hns⟩ := List.forall_mem_cons.mp h
    rw [List.cons_append, commands, command?_plain hc]
    simp only
    rw [ih hns, List.length_cons, Nat.add_right_comm, Nat.add_assoc]

/-! ## Beginnings of a line -/

/-- What a line begins with has no command in it, and just this is left of it. -/
structure Leaves (start left : List Char) : Prop where
  commands : ∀ place r, commands place 0 (start ++ r) = Terminal.commands (place + start.length) 0 r
  controls : ∀ r, r.head? ≠ some '\x02' →
    withoutControls 0 (start ++ r) = left ++ withoutControls 0 r
  head : ∀ r, r.head? ≠ some '\x02' → (start ++ r).head? ≠ some '\x02'

theorem leaves_plain (h : ∀ c ∈ ns, isPlain c = true) : Leaves ns ns where
  commands := commands_plain h
  controls r _ := by
    induction ns with
    | nil => rfl
    | cons c ns ih =>
      obtain ⟨hc, hns⟩ := List.forall_mem_cons.mp h
      rw [List.cons_append, withoutControls, afterControl?_plain hc]
      simp only
      rw [ih hns, List.cons_append]
  head r hr := by
    cases ns with
    | nil => exact hr
    | cons c ns => simpa using (isPlain_iff.mp (List.forall_mem_cons.mp h).1).2.1

theorem leaves_code (digits : List Char) (hdigits : ∀ c ∈ digits, Text.isDecimalDigit c = true)
    (hplain : ∀ c ∈ digits, isPlain c = true) : Leaves ('\x1b' :: '[' :: (digits ++ ['m'])) [] where
  commands place r := by
    have hrest : ∀ c ∈ '[' :: (digits ++ ['m']), isPlain c = true := by
      have hend : isPlain 'm' = true := by decide
      simp only [List.forall_mem_cons, List.forall_mem_append]
      exact ⟨by decide, hplain, hend, nofun⟩
    -- a colour code is no command for the window, so only the second pass takes it
    have hnone : command? ('\x1b' :: ('[' :: (digits ++ ['m']) ++ r)) = none := by rfl
    rw [List.cons_append, Terminal.commands, hnone]
    simp only
    rw [commands_plain hrest, List.length_cons (a := '\x1b'), Nat.add_right_comm, Nat.add_assoc]
  controls r hr := by
    have hafter : afterControl? ('\x1b' :: ('[' :: (digits ++ ['m']) ++ r)) = some r := by
      have hend : (digits ++ 'm' :: r).dropWhile (fun c => Text.isDecimalDigit c || c = ';') =
          'm' :: r := by
        rw [List.dropWhile_append_of_pos fun c hc => by rw [hdigits c hc, Bool.true_or]]
        rfl
      have hletter : isAsciiLetter 'm' = true := by decide
      have hstart : dropOne '\x01' ('\x1b' :: ('[' :: (digits ++ ['m']) ++ r)) =
          '\x1b' :: '[' :: (digits ++ 'm' :: r) := by simp [dropOne]
      unfold afterControl?
      rw [hstart]
      simp only
      rw [hend]
      simp only
      rw [if_pos hletter, dropOne_of_head? hr]
    rw [List.cons_append, withoutControls, hafter]
    simp only [List.length_append, Nat.add_sub_cancel]
    exact withoutControls_skip _ _
  head r _ := by simp

theorem Leaves.append {start left start' left' : List Char} (h : Leaves start left)
    (h' : Leaves start' left') : Leaves (start ++ start') (left ++ left') where
  commands place r := by
    rw [List.append_assoc, h.commands, h'.commands, List.length_append, Nat.add_assoc]
  controls r hr := by
    rw [List.append_assoc, h.controls _ (h'.head r hr), h'.controls r hr, List.append_assoc]
  head r hr := by
    rw [List.append_assoc]
    exact h.head _ (h'.head r hr)

/-! ## Commands further on -/

def Placed.shift (n : Nat) (p : Placed) : Placed := ⟨p.first + n, p.last + n, p.command⟩

theorem commands_shift (n place skipped : Nat) (cs : List Char) :
    commands (place + n) skipped cs = (commands place skipped cs).map (Placed.shift n) := by
  induction cs generalizing place skipped with
  | nil => cases skipped <;> rfl
  | cons c r ih =>
    cases skipped with
    | succ skipped =>
      rw [commands, commands, Nat.add_right_comm, ih]
    | zero =>
      rw [commands, commands]
      cases command? (c :: r) with
      | none =>
        simp only
        rw [Nat.add_right_comm, ih]
      | some found =>
        have hplace : place + n + 1 = place + 1 + n := by omega
        have hlast (k : Nat) : place + 1 + n + k = place + 1 + k + n := by omega
        simp only [List.map_cons, Placed.shift]
        rw [hplace, ih, hlast]

theorem le_first {place skipped : Nat} {p : Placed} (h : p ∈ commands place skipped cs) :
    place ≤ p.first := by
  induction cs generalizing place skipped with
  | nil => cases skipped <;> cases h
  | cons c r ih =>
    cases skipped with
    | succ skipped => exact Nat.le_of_succ_le (ih h)
    | zero =>
      rw [commands] at h
      split at h
      · rcases List.mem_cons.mp h with rfl | h
        · exact Nat.le_refl _
        · exact Nat.le_of_succ_le (ih h)
      · exact Nat.le_of_succ_le (ih h)

/-- The text without the commands, each taken from its place in the whole text. -/
def clear (found : List Placed) (cs : List Char) : List Char :=
  found.foldl (fun cs p => cs.take p.first ++ cs.drop p.last) cs

theorem clear_shift (start : List Char) (found : List Placed) (cs : List Char) :
    clear (found.map (Placed.shift start.length)) (start ++ cs) = start ++ clear found cs := by
  induction found generalizing cs with
  | nil => rfl
  | cons p found ih =>
    have hstep : (start ++ cs).take (p.first + start.length) ++
        (start ++ cs).drop (p.last + start.length) =
          start ++ (cs.take p.first ++ cs.drop p.last) := by
      rw [Nat.add_comm, List.take_length_add_append, Nat.add_comm, List.drop_length_add_append,
        List.append_assoc]
    rw [clear, List.map_cons, List.foldl_cons, Placed.shift]
    simp only
    rw [hstep]
    exact ih _

theorem clear_cons {found : List Placed} (h : ∀ p ∈ found, 1 ≤ p.first) (c : Char)
    (cs : List Char) : ∃ rest, clear found (c :: cs) = c :: rest := by
  induction found generalizing cs with
  | nil => exact ⟨cs, rfl⟩
  | cons p found ih =>
    obtain ⟨hp, hfound⟩ := List.forall_mem_cons.mp h
    obtain ⟨first, hfirst⟩ := Nat.exists_eq_add_of_le' hp
    rw [clear, List.foldl_cons, hfirst, List.take_succ_cons, List.cons_append]
    exact ih hfound _

/-- What a line leaves, if its beginning leaves this much. -/
theorem plain?_append {start left : List Char} (h : Leaves start left) (hc : isPlain c = true) :
    plain? (String.ofList (start ++ c :: cs)) =
      (plain? (String.ofList (c :: cs))).map (String.ofList left ++ ·) := by
  have hcommands : commands 0 0 (start ++ c :: cs) =
      (commands 0 0 (c :: cs)).map (Placed.shift start.length) := by
    rw [h.commands, commands_shift]
  have hplace : ∀ p ∈ commands 0 0 (c :: cs), 1 ≤ p.first := by
    intro p hp
    rw [commands, command?_plain hc] at hp
    exact le_first hp
  obtain ⟨rest, hrest⟩ := clear_cons hplace c cs
  have htitles : (commands 0 0 (start ++ c :: cs)).any (setsTitle ·.command) =
      (commands 0 0 (c :: cs)).any (setsTitle ·.command) := by
    rw [hcommands, List.any_map]
    rfl
  have hcontrols : withoutControls 0 (clear (commands 0 0 (start ++ c :: cs)) (start ++ c :: cs)) =
      left ++ withoutControls 0 (clear (commands 0 0 (c :: cs)) (c :: cs)) := by
    rw [hcommands, clear_shift, h.controls]
    rw [hrest]
    simpa using (isPlain_iff.mp hc).2.1
  unfold plain?
  simp only [String.toList_ofList, htitles]
  split
  · rfl
  · rw [Option.map_some, ← String.ofList_append]
    exact congrArg (some ∘ String.ofList) hcontrols

theorem leaves_cyan : Leaves cyan.toList [] :=
  leaves_code ['3', '6'] (List.all_eq_true.mp (by decide))
    (List.all_eq_true.mp (by decide))

theorem leaves_plainStyle : Leaves plainStyle.toList [] :=
  leaves_code ['0'] (List.all_eq_true.mp (by decide)) (List.all_eq_true.mp (by decide))

end Terminal

theorem Kind.names_plain : ∀ k ∈ registered, k.name.toList.all Terminal.isPlain = true :=
  fun k hk => List.all_eq_true.mpr fun c hc => Terminal.isPlain_of_isInert (names_inert k hk c hc)

theorem Event.plain?_colourise {e : Event} (hk : e.kind ∈ Kind.registered) {line : String}
    (h : e.displayLine = .ok line) :
    Terminal.plain? (e.colourise line) = Terminal.plain? line := by
  obtain ⟨text, htext, ⟨⟩⟩ := bind_ok.mp h
  let name := e.kind.name.toList
  let rest := '\x7b' :: ' ' :: (text.toList ++ [' ', '\x7d'])
  have hname := Terminal.leaves_plain (List.all_eq_true.mp (Kind.names_plain _ hk))
  have hstart := (Terminal.leaves_cyan.append hname).append Terminal.leaves_plainStyle
  have hline : e.kind.name ++ " \x7b " ++ text ++ " \x7d" = String.ofList (name ++ ' ' :: rest) := by
    apply String.toList_injective
    simp [name, rest]
  have hcoloured : e.colourise (e.kind.name ++ " \x7b " ++ text ++ " \x7d") =
      String.ofList (cyan.toList ++ name ++ plainStyle.toList ++ ' ' :: rest) := by
    apply String.toList_injective
    have hdrop : (name ++ ' ' :: rest).drop e.kind.name.length = ' ' :: rest := by
      rw [← String.length_toList, List.drop_left]
    simp only [colourise, hline, String.toList_ofList, hdrop, String.toList_append]
    simp [name]
  rw [hcoloured, hline, Terminal.plain?_append hstart (by decide),
    Terminal.plain?_append hname (by decide)]
  simp

end Detection
