import Detection.Proofs.Decimal.Whole
import Detection.Proofs.Json.Documents

/-! # Keys of mappings, and the entries they find -/

namespace Detection

namespace Mapping

/-! ## Equal keys -/

/-- What keys have in common when they are one. A whole number is the same key in every type. -/
def keyForm? (v : Value) : Option Value :=
  match v.integer? with
  | some n => some (.int n)
  | none =>
    match v with
    | .none | .text _ | .broken _ | .bytes _ | .time _ | .address _ | .real _ => some v
    | _ => Option.none

theorem keyForm?_of_integer {v : Value} {n : Int} (h : v.integer? = some n) :
    keyForm? v = some (.int n) := by
  unfold keyForm?
  rw [h]

theorem keyForm?_cases {v : Value} (h : v.integer? = none) :
    keyForm? v = none ∨ keyForm? v = some v := by
  unfold keyForm?
  rw [h]
  cases v <;> simp

theorem keyForm?_real (x : Binary64) : (keyForm? (.real x)).isSome = true := by
  unfold keyForm?
  split <;> rfl

theorem sameKey_real {x y : Binary64} :
    sameKey (.real x) (.real y) = true ↔ keyForm? (.real x) = keyForm? (.real y) := by
  have hform (z : Binary64) : keyForm? (.real z) =
      match z.toInt? with
      | some n => some (.int n)
      | none => some (.real z) := rfl
  have hzero {z : Binary64} (h : z.isZero = true) : keyForm? (.real z) = some (.int 0) := by
    rw [hform, Binary64.toInt?_eq_zero_iff.mpr h]
  simp only [sameKey, Bool.or_eq_true, Bool.and_eq_true, decide_eq_true_eq]
  constructor
  · rintro (rfl | ⟨hx, hy⟩)
    · rfl
    · rw [hzero hx, hzero hy]
  · intro h
    rw [hform, hform] at h
    split at h
    · rename_i m hm
      split at h
      · rename_i n hn
        cases h
        exact Binary64.eq_of_toInt? hm hn
      · cases h
    · split at h
      · cases h
      · cases h
        exact .inl rfl

theorem keyForm?_ne_int {v : Value} (h : v.integer? = none) (n : Int) :
    keyForm? v ≠ some (.int n) := by
  intro hform
  rcases keyForm?_cases h with hnone | hself
  · rw [hnone] at hform
    cases hform
  · rw [hself, Option.some.injEq] at hform
    rw [hform] at h
    cases h

theorem eq_of_keyForm? {a b : Value} (ha : a.integer? = none) (hsome : (keyForm? a).isSome = true)
    (hform : keyForm? a = keyForm? b) : keyForm? a = some a ∧ a = b := by
  have hself := (keyForm?_cases ha).resolve_left (Option.isSome_iff_ne_none.mp hsome)
  have hb : b.integer? = none := by
    rw [Option.eq_none_iff_forall_ne_some]
    intro n hn
    rw [keyForm?_of_integer hn] at hform
    exact keyForm?_ne_int ha n hform
  rw [hself] at hform
  refine ⟨hself, ?_⟩
  rcases keyForm?_cases hb with h | h
  · rw [h] at hform
    cases hform
  · rw [h] at hform
    exact Option.some.inj hform

theorem sameKey_iff {a b : Value} :
    sameKey a b = true ↔ (keyForm? a).isSome = true ∧ keyForm? a = keyForm? b := by
  unfold sameKey
  split
  case h_7 x y =>
    rw [and_iff_right (keyForm?_real x)]
    exact sameKey_real
  -- What is left are whole numbers, values of two kinds, and values that are no keys.
  case h_8 hnone htext hbroken hbytes htime haddress hreal =>
    cases ha : a.integer? with
    | some m =>
      rw [keyForm?_of_integer ha]
      cases hb : b.integer? with
      | some n => simp [keyForm?_of_integer hb]
      | none => simpa using (keyForm?_ne_int hb m).symm
    | none =>
      simp only [Bool.false_eq_true, false_iff, not_and]
      intro hsome hform
      obtain ⟨hself, rfl⟩ := eq_of_keyForm? ha hsome hform
      cases a with
      | none => exact hnone rfl rfl
      | text s => exact htext s s rfl rfl
      | broken ps => exact hbroken ps ps rfl rfl
      | bytes bs => exact hbytes bs bs rfl rfl
      | time t => exact htime t t rfl rfl
      | address x => exact haddress x x rfl rfl
      | real x => exact hreal x x rfl rfl
      | _ =>
        unfold keyForm? at hself
        rw [ha] at hself
        cases hself
  all_goals simp [keyForm?, Value.integer?]

theorem sameKey_symm {a b : Value} (h : sameKey a b = true) : sameKey b a = true := by
  rw [sameKey_iff] at h ⊢
  exact ⟨h.2 ▸ h.1, h.2.symm⟩

theorem sameKey_trans {a b c : Value} (hab : sameKey a b = true) (hbc : sameKey b c = true) :
    sameKey a c = true := by
  rw [sameKey_iff] at hab hbc ⊢
  exact ⟨hab.1, hab.2.trans hbc.2⟩

theorem sameKey_congr {a b : Value} (h : sameKey a b = true) (key : Value) :
    sameKey key a = sameKey key b := by
  rw [Bool.eq_iff_iff]
  exact ⟨fun ha => sameKey_trans ha h, fun hb => sameKey_trans hb (sameKey_symm h)⟩

theorem sameKey_text {key : Value} {name : String} :
    sameKey key (.text name) = true ↔ key = .text name := by
  cases key <;> simp [sameKey, Value.integer?]

/-! ## What is found under a key -/

theorem get?_cons (e : Value × Value) (m : Mapping) (key : Value) :
    get? (e :: m) key = if sameKey e.1 key then some e.2 else get? m key := by
  unfold get?
  rw [List.find?_cons]
  cases sameKey e.1 key <;> rfl

theorem get?_congr (m : Mapping) {a b : Value} (h : sameKey a b = true) : get? m a = get? m b := by
  unfold get?
  simp only [sameKey_congr h]

theorem get?_eq_none_iff {m : Mapping} {key : Value} :
    get? m key = none ↔ ∀ e ∈ m, sameKey e.1 key = false := by
  simp [get?]

theorem get?_put (m : Mapping) (key other v : Value) :
    (m.put key v).get? other = if sameKey key other then some v else m.get? other := by
  induction m with
  | nil => rw [put, get?_cons]
  | cons e es ih =>
    unfold put
    split
    · rename_i he
      have hsame : sameKey e.1 other = sameKey key other := by
        rw [Bool.eq_iff_iff]
        exact ⟨fun h => sameKey_trans (sameKey_symm he) h, fun h => sameKey_trans he h⟩
      simp only [get?_cons, hsame]
      split <;> rfl
    · rename_i he
      rw [get?_cons, get?_cons, ih]
      split
      · rename_i hother
        have hne : ¬sameKey key other = true := fun h => he (sameKey_trans hother (sameKey_symm h))
        rw [if_neg hne]
      · rfl

theorem put_get? {m : Mapping} {key v : Value} (h : m.get? key = some v) : m.put key v = m := by
  induction m with
  | nil => cases h
  | cons e es ih =>
    rw [get?_cons] at h
    unfold put
    split
    · rename_i he
      rw [if_pos he] at h
      rw [← Option.some.inj h]
    · rename_i he
      rw [if_neg he] at h
      rw [ih h]

end Mapping

/-! ## Mappings with one entry for a key -/

namespace Value

def isMapping : Value → Bool
  | .dict _ => true
  | _ => false

mutual

/-- In the mappings of a value, one below the other, each key is equal to itself and to no other. -/
def isKeyed : Value → Bool
  | .dict entries => areKeyed entries
  | _ => true

def areKeyed : Mapping → Bool
  | [] => true
  | (key, v) :: es =>
    Mapping.sameKey key key && es.all (fun e => !Mapping.sameKey key e.1) && isKeyed v && areKeyed es

end

theorem areKeyed_cons {key v : Value} {es : Mapping} :
    areKeyed ((key, v) :: es) = true ↔ Mapping.sameKey key key = true ∧
      (∀ e ∈ es, Mapping.sameKey key e.1 = false) ∧ v.isKeyed = true ∧ areKeyed es = true := by
  simp [areKeyed, and_assoc]

theorem areKeyed_put {m : Mapping} (h : areKeyed m = true) {key v : Value}
    (hkey : Mapping.sameKey key key = true) (hv : v.isKeyed = true) :
    areKeyed (m.put key v) = true := by
  induction m with
  | nil => simp [Mapping.put, areKeyed, hkey, hv]
  | cons e es ih =>
    obtain ⟨key', x⟩ := e
    obtain ⟨hkey', hfresh, hx, hes⟩ := areKeyed_cons.mp h
    unfold Mapping.put
    split
    · exact areKeyed_cons.mpr ⟨hkey', hfresh, hv, hes⟩
    · rename_i hne
      exact areKeyed_cons.mpr
        ⟨hkey', Mapping.fresh_put hfresh (Bool.eq_false_iff.mpr hne), hx, ih hes⟩

theorem get?_of_mem {m : Mapping} (h : areKeyed m = true) {e : Value × Value} (he : e ∈ m) :
    m.get? e.1 = some e.2 := by
  induction m with
  | nil => cases he
  | cons e' es ih =>
    obtain ⟨key, v⟩ := e'
    obtain ⟨hkey, hfresh, -, hes⟩ := areKeyed_cons.mp h
    rw [Mapping.get?_cons]
    rcases List.mem_cons.mp he with rfl | he
    · rw [if_pos hkey]
    · rw [if_neg (by simp [hfresh e he]), ih hes he]

theorem isKeyed_of_get? {m : Mapping} (h : areKeyed m = true) {key v : Value}
    (hv : m.get? key = some v) : v.isKeyed = true := by
  induction m with
  | nil => cases hv
  | cons e es ih =>
    obtain ⟨key', x⟩ := e
    obtain ⟨-, -, hx, hes⟩ := areKeyed_cons.mp h
    rw [Mapping.get?_cons] at hv
    split at hv
    · rwa [← Option.some.inj hv]
    · exact ih hes hv

end Value

end Detection
