import Detection.Proofs.Mapping.Keys

/-! # One mapping laid over another, path by path

What the upper mapping holds at a path is laid over what the lower one holds there. So the upper one
prevails but where both hold mappings, and where it says nothing the lower one shows.
-/

namespace Detection.Mapping

open Value (areKeyed areKeyed_cons)

variable {base above : Mapping} {old : Option Value} {v w : Value} {p : List Value}

/-! ## Paths of keys -/

/-- What a value holds at a path of keys, one below the other. -/
def reach? (v : Value) : List Value → Option Value
  | [] => some v
  | key :: rest =>
    match v with
    | .dict m => (get? m key).bind (reach? · rest)
    | _ => none

theorem reach?_dict (m : Mapping) (key : Value) (rest : List Value) :
    reach? (.dict m) (key :: rest) = (get? m key).bind (reach? · rest) := rfl

theorem reach?_of_not_mapping (h : v.isMapping = false) (key : Value) (rest : List Value) :
    reach? v (key :: rest) = none := by
  cases v with
  | dict m => cases h
  | _ => rfl

theorem reach?_append (v : Value) (p q : List Value) :
    reach? v (p ++ q) = (reach? v p).bind (reach? · q) := by
  induction p generalizing v with
  | nil => rfl
  | cons key rest ih =>
    cases v with
    | dict m =>
      rw [List.cons_append, reach?_dict, reach?_dict, Option.bind_assoc]
      simp only [ih]
    | _ => rfl

theorem isKeyed_of_reach? (hv : v.isKeyed = true) (h : reach? v p = some w) : w.isKeyed = true := by
  induction p generalizing v with
  | nil => rwa [← Option.some.inj h]
  | cons key rest ih =>
    cases v with
    | dict m =>
      obtain ⟨x, hx, hreach⟩ := Option.bind_eq_some_iff.mp h
      exact ih (Value.isKeyed_of_get? hv hx) hreach
    | _ => cases h

/-! ## Laying a value over what was there -/

theorem overlay_dict (base above : Mapping) :
    overlay (some (.dict base)) (.dict above) = .dict (merge base above) := by
  rw [overlay]

theorem overlay_of_not_mapping (h : v.isMapping = false) : overlay old v = v := by
  cases v with
  | dict m => cases h
  | _ =>
    rw [overlay]
    exact nofun

theorem overlay_of_forall_ne (h : ∀ base, old ≠ some (.dict base)) : overlay old v = v := by
  cases v with
  | dict m =>
    unfold overlay
    split
    · exact absurd rfl (h _)
    · rfl
  | _ => exact overlay_of_not_mapping rfl

theorem overlay_none (v : Value) : overlay none v = v := overlay_of_forall_ne nofun

theorem overlay_cases (old : Option Value) (above : Mapping) :
    (∃ base, old = some (.dict base) ∧ overlay old (.dict above) = .dict (merge base above)) ∨
      (∀ base, old ≠ some (.dict base)) ∧ overlay old (.dict above) = .dict above := by
  by_cases h : ∃ base, old = some (.dict base)
  · obtain ⟨base, rfl⟩ := h
    exact .inl ⟨base, rfl, overlay_dict base above⟩
  · have hne : ∀ base, old ≠ some (.dict base) := fun base heq => h ⟨base, heq⟩
    exact .inr ⟨hne, overlay_of_forall_ne hne⟩

/-- Under each key the upper value is laid over the lower one, which shows where there is none. -/
theorem get?_merge (h : areKeyed above = true) (key : Value) :
    get? (merge base above) key =
      ((get? above key).map (overlay (get? base key))).or (get? base key) := by
  induction above generalizing base with
  | nil =>
    rw [merge]
    rfl
  | cons e es ih =>
    obtain ⟨first, v⟩ := e
    obtain ⟨-, hfresh, -, hes⟩ := areKeyed_cons.mp h
    rw [merge, ih hes, get?_put, get?_cons]
    by_cases hsame : sameKey first key = true
    · have hnone : get? es key = none := by
        rw [get?_eq_none_iff]
        intro e he
        rw [← Bool.not_eq_true]
        intro hkey
        have hfirst := sameKey_trans hsame (sameKey_symm hkey)
        rw [hfresh e he] at hfirst
        cases hfirst
      rw [if_pos hsame, if_pos hsame, hnone, get?_congr base hsame]
      rfl
    · rw [if_neg hsame, if_neg hsame]

/-! ## Path by path -/

theorem reach?_of_forall_ne (h : ∀ base, old ≠ some (.dict base)) (key : Value) (rest : List Value) :
    old.bind (reach? · (key :: rest)) = none := by
  cases old with
  | none => rfl
  | some u =>
    cases u with
    | dict m => exact absurd rfl (h m)
    | _ => rfl

theorem reach?_overlay (hv : v.isKeyed = true) (h : reach? v p = some w) :
    reach? (overlay old v) p = some (overlay (old.bind (reach? · p)) w) := by
  induction p generalizing v old with
  | nil =>
    cases h
    cases old <;> rfl
  | cons key rest ih =>
    cases v with
    | dict es =>
      rw [reach?_dict] at h
      obtain ⟨x, hx, hreach⟩ := Option.bind_eq_some_iff.mp h
      rcases overlay_cases old es with ⟨base, rfl, hoverlay⟩ | ⟨hne, hoverlay⟩
      · rw [hoverlay, reach?_dict, get?_merge hv, hx]
        exact ih (Value.isKeyed_of_get? hv hx) hreach
      · rw [hoverlay, reach?_of_forall_ne hne, overlay_none]
        exact h
    | _ => cases h

theorem reach?_overlay_none (hv : v.isKeyed = true) (h : reach? v p = none)
    (hmappings : ∀ q u, q <+: p → reach? v q = some u → u.isMapping = true) :
    reach? (overlay old v) p = old.bind (reach? · p) := by
  induction p generalizing v old with
  | nil => cases h
  | cons key rest ih =>
    have hmapping := hmappings [] v List.nil_prefix rfl
    cases v with
    | dict es =>
      rcases overlay_cases old es with ⟨base, rfl, hoverlay⟩ | ⟨hne, hoverlay⟩
      · rw [hoverlay, reach?_dict, get?_merge hv]
        cases hx : get? es key with
        | none => rfl
        | some x =>
          rw [reach?_dict, hx] at h
          refine ih (Value.isKeyed_of_get? hv hx) h fun q u hq hu => ?_
          refine hmappings (key :: q) u (List.cons_prefix_cons.mpr ⟨rfl, hq⟩) ?_
          rw [reach?_dict, hx]
          exact hu
      · rw [hoverlay, reach?_of_forall_ne hne]
        exact h
    | _ => cases hmapping

theorem reach?_overlay_below (hv : v.isKeyed = true) (h : reach? v p = some w)
    (hw : w.isMapping = false) (key : Value) (rest : List Value) :
    reach? (overlay old v) (p ++ key :: rest) = none := by
  rw [reach?_append, reach?_overlay hv h, overlay_of_not_mapping hw]
  exact reach?_of_not_mapping hw key rest

theorem isSome_get?_merge (h : areKeyed above = true) (key : Value) :
    (get? (merge base above) key).isSome = ((get? base key).isSome || (get? above key).isSome) := by
  rw [get?_merge h]
  cases get? above key <;> cases get? base key <;> rfl

/-! ## Laying a mapping over once more -/

theorem merge_of_settled {m : Mapping}
    (h : ∀ e ∈ above, ∃ x, get? m e.1 = some x ∧ overlay (some x) e.2 = x) : merge m above = m := by
  induction above with
  | nil => rw [merge]
  | cons e es ih =>
    obtain ⟨⟨x, hx, hsettled⟩, hes⟩ := List.forall_mem_cons.mp h
    obtain ⟨key, v⟩ := e
    rw [merge, hx, hsettled, put_get? hx]
    exact ih hes

mutual

theorem overlay_again : ∀ (v : Value), v.isKeyed = true → ∀ old : Option Value,
    overlay (some (overlay old v)) v = overlay old v
  | .dict es, h, old => by
    have hes := overlay_each_again es h
    rcases overlay_cases old es with ⟨base, rfl, hoverlay⟩ | ⟨-, hoverlay⟩
    · rw [hoverlay, overlay_dict]
      congr 1
      refine merge_of_settled fun e he => ⟨overlay (get? base e.1) e.2, ?_, hes e he _⟩
      rw [get?_merge h, Value.get?_of_mem h he]
      rfl
    · rw [hoverlay, overlay_dict]
      congr 1
      refine merge_of_settled fun e he => ⟨e.2, Value.get?_of_mem h he, ?_⟩
      have hagain := hes e he none
      rwa [overlay_none] at hagain
  | .none, _, _ | .flag _, _, _ | .int _, _, _ | .real _, _, _ | .text _, _, _ | .broken _, _, _
  | .bytes _, _, _ | .buffer _, _, _ | .address _, _, _ | .time _, _, _ | .member _, _, _
  | .list _, _, _ | .tuple _, _, _ | .score _ _, _, _ | .command _ _ _, _, _
  | .endpoint _ _ _, _, _ | .multiPort _ _ _, _, _ | .group _ _ _, _, _ => by
    rw [overlay_of_not_mapping rfl, overlay_of_not_mapping rfl]

theorem overlay_each_again : ∀ (es : Mapping), areKeyed es = true → ∀ e ∈ es, ∀ old : Option Value,
    overlay (some (overlay old e.2)) e.2 = overlay old e.2
  | [], _, e, he => absurd he List.not_mem_nil
  | (key, v) :: es, h, e, he => by
    obtain ⟨-, -, hv, hes⟩ := areKeyed_cons.mp h
    rcases List.mem_cons.mp he with rfl | he
    · exact overlay_again v hv
    · exact overlay_each_again es hes e he

end

theorem merge_again (h : areKeyed above = true) (base : Mapping) :
    merge (merge base above) above = merge base above := by
  have hagain := overlay_again (.dict above) h (some (.dict base))
  rw [overlay_dict, overlay_dict] at hagain
  exact Value.dict.inj hagain

end Detection.Mapping
