/-! # When steps that may fail succeed or fail together -/

namespace Detection

variable {ε ε' α β : Type}

theorem bind_ok {x : Except ε α} {f : α → Except ε β} {b : β} :
    (x >>= f) = .ok b ↔ ∃ a, x = .ok a ∧ f a = .ok b := by
  cases x <;> simp [bind, Except.bind]

theorem bind_error {x : Except ε α} {f : α → Except ε β} {e : ε} :
    (x >>= f) = .error e ↔ x = .error e ∨ ∃ a, x = .ok a ∧ f a = .error e := by
  cases x <;> simp [bind, Except.bind]

theorem map_ok {f : α → β} {x : Except ε α} {b : β} :
    x.map f = .ok b ↔ ∃ a, x = .ok a ∧ f a = b := by
  cases x <;> simp [Except.map]

/-- Steps that show the same both fail, or both succeed with the same to show. -/
theorem cases_of_map_eq {γ : Type} {f : α → γ} {g : β → γ} {x : Except ε α} {y : Except ε β}
    (h : x.map f = y.map g) :
    (∃ e, x = .error e ∧ y = .error e) ∨ ∃ a b, x = .ok a ∧ y = .ok b ∧ f a = g b := by
  cases x with
  | error e =>
    cases y with
    | error e' =>
      cases h
      exact .inl ⟨e, rfl, rfl⟩
    | ok b => cases h
  | ok a =>
    cases y with
    | error e' => cases h
    | ok b => exact .inr ⟨a, b, rfl, rfl, Except.ok.inj h⟩

@[simp] theorem ok_mapError (f : ε → ε') (a : α) : (Except.ok a).mapError f = .ok a := rfl

@[simp] theorem error_mapError (f : ε → ε') (e : ε) :
    (Except.error e : Except ε α).mapError f = .error (f e) := rfl

theorem mapError_ok {f : ε → ε'} {x : Except ε α} {a : α} :
    x.mapError f = .ok a ↔ x = .ok a := by
  cases x with
  | error e => simp [error_mapError]
  | ok b => rw [ok_mapError, Except.ok.injEq, Except.ok.injEq]

theorem mapError_error {f : ε → ε'} {x : Except ε α} {e' : ε'} :
    x.mapError f = .error e' ↔ ∃ e, x = .error e ∧ f e = e' := by
  cases x with
  | error e => simp [error_mapError]
  | ok b => simp [ok_mapError]

@[simp] theorem toOption_eq_some {x : Except ε α} {a : α} : x.toOption = some a ↔ x = .ok a := by
  cases x <;> simp [Except.toOption]

theorem exists_of_isSome {x : Except ε α} (h : x.toOption.isSome = true) : ∃ a, x = .ok a := by
  obtain ⟨a, ha⟩ := Option.isSome_iff_exists.mp h
  exact ⟨a, toOption_eq_some.mp ha⟩

theorem exists_of_any {x : Except ε α} {p : α → Bool} (h : x.toOption.any p = true) :
    ∃ a, x = .ok a ∧ p a = true := by
  obtain ⟨a, ha, hp⟩ := (Option.any_eq_true p x.toOption).mp h
  exact ⟨a, toOption_eq_some.mp ha, hp⟩

theorem mapM_ok {f : α → Except ε β} {xs : List α} {ys : List β} :
    xs.mapM f = .ok ys ↔ xs.map f = ys.map .ok := by
  induction xs generalizing ys with
  | nil => cases ys <;> simp [pure, Except.pure]
  | cons x xs ih =>
    rw [List.mapM_cons, bind_ok]
    simp only [bind_ok, ih]
    cases ys with
    | nil => simp [pure, Except.pure]
    | cons y ys => simp [pure, Except.pure]

theorem exists_of_map_ok {f : α → Except ε β} {xs : List α} {ys : List β}
    (h : xs.map f = ys.map .ok) {y : β} (hy : y ∈ ys) : ∃ x ∈ xs, f x = .ok y := by
  have hmem : Except.ok y ∈ ys.map (Except.ok (ε := ε)) := List.mem_map_of_mem hy
  rw [← h] at hmem
  exact List.mem_map.mp hmem

theorem map_eq_of_map_ok {γ : Type} {f : α → Except ε β} {g : α → γ} {g' : β → γ}
    (hg : ∀ x y, f x = .ok y → g x = g' y) {xs : List α} {ys : List β}
    (h : xs.map f = ys.map .ok) : xs.map g = ys.map g' := by
  induction xs generalizing ys with
  | nil =>
    cases ys with
    | nil => rfl
    | cons y ys => cases h
  | cons x xs ih =>
    cases ys with
    | nil => cases h
    | cons y ys =>
      rw [List.map_cons, List.map_cons, List.cons.injEq] at h
      rw [List.map_cons, List.map_cons, hg x y h.1, ih h.2]

theorem exists_of_mapM_error {f : α → Except ε β} {xs : List α} {e : ε}
    (h : xs.mapM f = .error e) : ∃ x ∈ xs, f x = .error e := by
  induction xs with
  | nil => cases h
  | cons x xs ih =>
    rw [List.mapM_cons, bind_error] at h
    rcases h with h | ⟨y, -, h⟩
    · exact ⟨x, List.mem_cons_self, h⟩
    · rcases bind_error.mp h with h | ⟨ys, -, h⟩
      · obtain ⟨x', hx', herror⟩ := ih h
        exact ⟨x', List.mem_cons_of_mem _ hx', herror⟩
      · cases h

theorem mapM_readBack {write : α → β} {read? : β → Option α} (h : ∀ a, read? (write a) = some a)
    (xs : List α) : (xs.map write).mapM read? = some xs := by
  induction xs with
  | nil => rfl
  | cons x xs ih =>
    rw [List.map_cons, List.mapM_cons, h, ih]
    rfl

theorem mapM_flatten {γ : Type} (f : α → Except ε (List β)) (view : β → γ) (xs : List α) :
    (xs.mapM f).map (fun ls => ls.flatten.map view) =
      (xs.mapM fun x => (f x).map (List.map view)).map List.flatten := by
  induction xs with
  | nil => rfl
  | cons x xs ih =>
    rw [List.mapM_cons, List.mapM_cons]
    cases f x with
    | error e => rfl
    | ok ls =>
      have hleft (r : Except ε (List (List β))) :
          (r >>= fun rest => pure (ls :: rest)).map (fun ls => ls.flatten.map view) =
            (r.map fun ls => ls.flatten.map view).map (ls.map view ++ ·) := by
        cases r with
        | error e => rfl
        | ok rest => exact congrArg Except.ok (List.map_append ..)
      have hright (r : Except ε (List (List γ))) :
          (r >>= fun rest => pure (ls.map view :: rest)).map List.flatten =
            (r.map List.flatten).map (ls.map view ++ ·) := by
        cases r <;> rfl
      exact (hleft _).trans ((congrArg _ ih).trans (hright _).symm)

/-- Traversals agree up to a view of what they list when they do so for each member. -/
theorem mapM_flatten_congr {γ : Type} {f g : α → Except ε (List β)} {view : β → γ} {xs : List α}
    (h : ∀ x ∈ xs, (f x).map (List.map view) = (g x).map (List.map view)) :
    (xs.mapM f).map (fun ls => ls.flatten.map view) =
      (xs.mapM g).map (fun ls => ls.flatten.map view) := by
  have hviewed : (xs.mapM fun x => (f x).map (List.map view)) =
      xs.mapM fun x => (g x).map (List.map view) := by
    induction xs with
    | nil => rfl
    | cons x xs ih =>
      obtain ⟨hx, hxs⟩ := List.forall_mem_cons.mp h
      rw [List.mapM_cons, List.mapM_cons, hx, ih hxs]
  rw [mapM_flatten, mapM_flatten, hviewed]

end Detection
