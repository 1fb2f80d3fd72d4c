import Mathlib.Data.List.TakeDrop
import Mathlib.Data.List.TakeWhile
import Detection.Text.Split

/-! # Text that is joined is cut into its parts again -/

namespace Detection.Text

theorem split_of_not_mem {sep : Char} {cs : List Char} (h : sep ∉ cs) : split sep cs = [cs] := by
  induction cs with
  | nil => rfl
  | cons c cs ih =>
    have hc : c ≠ sep := fun heq => h (heq ▸ List.mem_cons_self)
    rw [split, if_neg hc, ih (fun hmem => h (List.mem_cons_of_mem c hmem))]

theorem split_append {sep : Char} {cs : List Char} (h : sep ∉ cs) (rest : List Char) :
    split sep (cs ++ sep :: rest) = cs :: split sep rest := by
  induction cs with
  | nil => rw [List.nil_append, split, if_pos rfl]
  | cons c cs ih =>
    have hc : c ≠ sep := fun heq => h (heq ▸ List.mem_cons_self)
    rw [List.cons_append, split, if_neg hc, ih (fun hmem => h (List.mem_cons_of_mem c hmem))]

theorem split_join {sep : Char} {parts : List (List Char)} (h : ∀ p ∈ parts, sep ∉ p) :
    split sep (join [sep] parts) = if parts = [] then [[]] else parts := by
  induction parts using join.induct with
  | case1 => rfl
  | case2 p => exact split_of_not_mem (h p List.mem_cons_self)
  | case3 p q ps ih =>
    obtain ⟨hp, hrest⟩ := List.forall_mem_cons.mp h
    rw [join, List.append_assoc, List.singleton_append, split_append hp, ih hrest]
    rfl

theorem join_cons (sep p : List Char) (ps : List (List Char)) :
    join sep (p :: ps) = p ++ ps.flatMap (sep ++ ·) := by
  induction ps generalizing p with
  | nil => exact (List.append_nil p).symm
  | cons q ps ih => rw [join, ih, List.flatMap_cons, List.append_assoc, List.append_assoc]

theorem mem_split {sep c : Char} {cs : List Char} (hc : c ∈ cs) (hne : c ≠ sep) :
    ∃ p ∈ split sep cs, c ∈ p := by
  induction cs with
  | nil => cases hc
  | cons d cs ih =>
    rw [split]
    rcases List.mem_cons.mp hc with rfl | hc
    · rw [if_neg hne]
      split
      · exact ⟨[c], List.mem_cons_self, List.mem_cons_self⟩
      · exact ⟨c :: _, List.mem_cons_self, List.mem_cons_self⟩
    · obtain ⟨p, hp, hmem⟩ := ih hc
      split
      · exact ⟨p, List.mem_cons_of_mem _ hp, hmem⟩
      · split
        · rename_i heq
          rw [heq] at hp
          cases hp
        · rename_i q qs heq
          rw [heq] at hp
          rcases List.mem_cons.mp hp with rfl | hp
          · exact ⟨d :: p, List.mem_cons_self, List.mem_cons_of_mem _ hmem⟩
          · exact ⟨p, List.mem_cons_of_mem _ hp, hmem⟩

theorem forall_mem_join {P : Char → Prop} {sep : List Char} {parts : List (List Char)}
    (hsep : ∀ c ∈ sep, P c) (h : ∀ p ∈ parts, ∀ c ∈ p, P c) : ∀ c ∈ join sep parts, P c := by
  induction parts using join.induct with
  | case1 => exact List.forall_mem_nil _
  | case2 p => exact h p List.mem_cons_self
  | case3 p q ps ih =>
    obtain ⟨hp, hrest⟩ := List.forall_mem_cons.mp h
    simp only [join, List.forall_mem_append]
    exact ⟨⟨hp, hsep⟩, ih hrest⟩

theorem not_mem_join {c : Char} {sep : List Char} {parts : List (List Char)} (hsep : c ∉ sep)
    (h : ∀ p ∈ parts, c ∉ p) : c ∉ join sep parts := by
  have hall : ∀ d ∈ join sep parts, d ≠ c :=
    forall_mem_join (fun d hd => ne_of_mem_of_not_mem hd hsep)
      fun p hp d hd => ne_of_mem_of_not_mem hd (h p hp)
  exact fun hmem => hall c hmem rfl

theorem split_join_append {sep : Char} {parts : List (List Char)} (h : ∀ p ∈ parts, sep ∉ p)
    (rest : List Char) :
    split sep (join [sep] parts ++ sep :: rest) =
      (if parts = [] then [[]] else parts) ++ split sep rest := by
  induction parts using join.induct with
  | case1 => exact split_append List.not_mem_nil rest
  | case2 p => exact split_append (h p List.mem_cons_self) rest
  | case3 p q ps ih =>
    obtain ⟨hp, hrest⟩ := List.forall_mem_cons.mp h
    rw [join, List.append_assoc, List.append_assoc, List.singleton_append, split_append hp,
      ih hrest]
    rfl

theorem cut_of_not_mem {sep : Char} {cs : List Char} (h : sep ∉ cs) : cut sep cs = (cs, none) := by
  have hall : ∀ c ∈ cs, decide (c ≠ sep) = true := fun c hc =>
    decide_eq_true fun heq => h (heq ▸ hc)
  rw [cut, List.span_eq_takeWhile_dropWhile, List.takeWhile_eq_self_iff.mpr hall,
    List.dropWhile_eq_nil_iff.mpr hall]

theorem cut_append {sep : Char} {cs : List Char} (h : sep ∉ cs) (rest : List Char) :
    cut sep (cs ++ sep :: rest) = (cs, some rest) := by
  have hall : ∀ c ∈ cs, decide (c ≠ sep) = true := fun c hc =>
    decide_eq_true fun heq => h (heq ▸ hc)
  rw [cut, List.span_eq_takeWhile_dropWhile, List.takeWhile_append_of_pos hall,
    List.dropWhile_append_of_pos hall]
  simp

/-- The parts in front of the first `n` separators, and what is behind them. -/
def cutTimes (sep : Char) : Nat → List Char → List (List Char)
  | 0, cs => [cs]
  | n + 1, cs =>
    match cut sep cs with
    | (before, none) => [before]
    | (before, some after) => before :: cutTimes sep n after

/-- The last of joined parts may hold separators: no more are cut at than stand in front of it. -/
theorem cutTimes_join {sep : Char} {parts : List (List Char)} (h : ∀ p ∈ parts, sep ∉ p)
    (rest : List Char) :
    cutTimes sep parts.length (join [sep] (parts ++ [rest])) = parts ++ [rest] := by
  induction parts with
  | nil => rfl
  | cons p ps ih =>
    obtain ⟨hp, hps⟩ := List.forall_mem_cons.mp h
    have hjoin : join [sep] (p :: (ps ++ [rest])) = p ++ sep :: join [sep] (ps ++ [rest]) := by
      cases ps <;> simp [join]
    rw [List.cons_append, hjoin, List.length_cons, cutTimes, cut_append hp]
    simp only [ih hps]

theorem subset_of_cut {sep : Char} {cs before after : List Char}
    (h : cut sep cs = (before, some after)) : after ⊆ cs := by
  have hspan : (cs.span (· ≠ sep)).2 ⊆ cs := by
    rw [List.span_eq_takeWhile_dropWhile]
    exact List.dropWhile_subset _
  unfold cut at h
  split at h
  · cases h
  · rename_i heq
    rw [heq] at hspan
    cases h
    exact fun c hc => hspan (List.mem_cons_of_mem _ hc)

end Detection.Text
