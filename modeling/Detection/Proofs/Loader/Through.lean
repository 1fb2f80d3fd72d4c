import Detection.Loader
import Detection.Proofs.Json.RoundTrip
import Detection.Proofs.Mapping.Keys
import Detection.Proofs.Record.Admitted

/-! # Records on their way through a document

A record of document values comes back from the document as it went in, or is refused. What is
checked then depends on what stands under each name, and on nothing else.
-/

namespace Detection

/-! ## Entries under names -/

namespace Mapping

theorem get?_put_text (m : Mapping) (name other : String) (v : Value) :
    (m.put (.text name) v).get? (.text other) =
      if name = other then some v else m.get? (.text other) := by
  have hname : sameKey (.text name) (.text other) = decide (name = other) := rfl
  simp only [get?_put, hname, decide_eq_true_eq]

theorem mem_of_get? {m : Mapping} {name : String} {v : Value}
    (h : m.get? (.text name) = some v) : (.text name, v) ∈ m := by
  obtain ⟨e, he, rfl⟩ := Option.map_eq_some_iff.mp h
  have hsame : sameKey e.1 (.text name) = true :=
    List.find?_some (p := fun e : Value × Value => sameKey e.1 (.text name)) he
  rw [← sameKey_text.mp hsame]
  exact List.mem_of_find?_eq_some he

theorem get?_eq_some_iff {m : Mapping} {name : String}
    (hone : ∀ v w, (.text name, v) ∈ m → (.text name, w) ∈ m → v = w) {v : Value} :
    m.get? (.text name) = some v ↔ (.text name, v) ∈ m := by
  refine ⟨mem_of_get?, fun h => ?_⟩
  cases hget : m.get? (.text name) with
  | some w => rw [hone v w h (mem_of_get? hget)]
  | none =>
    rw [get?, Option.map_eq_none_iff, List.find?_eq_none] at hget
    exact absurd (sameKey_text.mpr rfl) (hget _ h)

end Mapping

/-! ## Entries that a document holds -/

namespace Value

open Mapping (sameKey sameKey_text)

theorem eq_of_name {es : Mapping} (h : haveDocuments es = true) {name : String} {v w : Value}
    (hv : (.text name, v) ∈ es) (hw : (.text name, w) ∈ es) : v = w := by
  induction es with
  | nil => cases hv
  | cons e es ih =>
    obtain ⟨key, x⟩ := e
    simp only [haveDocuments, Bool.and_eq_true, List.all_eq_true, Bool.not_eq_true'] at h
    have hfresh {y : Value} (hy : (.text name, y) ∈ es) : key ≠ .text name := by
      intro heq
      have hsame := h.1.1.2 _ hy
      rw [sameKey_text.mpr heq] at hsame
      cases hsame
    rcases List.mem_cons.mp hv with hfirst | hv'
    · rcases List.mem_cons.mp hw with hfirst' | hw'
      · cases hfirst
        cases hfirst'
        rfl
      · exact absurd (congrArg Prod.fst hfirst).symm (hfresh hw')
    · rcases List.mem_cons.mp hw with hfirst' | hw'
      · exact absurd (congrArg Prod.fst hfirst').symm (hfresh hv')
      · exact ih h.2 hv' hw'

end Value

namespace Record

mutual

theorem plain_of_isPlain : ∀ v : Value, v.isPlain = true → plain v = .ok v
  | .none, _ | .flag _, _ | .int _, _ | .real _, _ | .text _, _ | .broken _, _ => rfl
  | .list items, h => by
    rw [plain, plainAll_of_isPlain items h]
    rfl
  | .dict entries, h => by
    rw [plain, plainEntries_of_isPlain entries h]
    rfl

theorem plainAll_of_isPlain :
    ∀ vs : List Value, Value.isPlainAll vs = true → plainAll vs = .ok vs
  | [], _ => rfl
  | v :: vs, h => by
    rw [Value.isPlainAll, Bool.and_eq_true] at h
    rw [plainAll, plain_of_isPlain v h.1, plainAll_of_isPlain vs h.2]
    rfl

theorem plainEntries_of_isPlain :
    ∀ es : Mapping, Value.isPlainEntries es = true → plainEntries es = .ok es
  | [], _ => rfl
  | (key, v) :: es, h => by
    simp only [Value.isPlainEntries, Bool.and_eq_true] at h
    rw [plainEntries, plain_of_isPlain v h.1.2, plainEntries_of_isPlain es h.2]
    rfl

end

theorem plainEntries_documents (es : Mapping) (h : Value.haveDocuments es = true) :
    plainEntries es = .ok es :=
  plainEntries_of_isPlain es (Value.isPlainEntries_of_haveDocuments es h)

/-! ## Checking what stands under each name -/

theorem checkFields_congr {m m' : Mapping} {fs : List Field}
    (h : ∀ f ∈ fs, m'.get? (.text f.name) = m.get? (.text f.name)) :
    checkFields m' fs = checkFields m fs := by
  induction fs with
  | nil => rfl
  | cons f fs ih =>
    obtain ⟨hf, hfs⟩ := List.forall_mem_cons.mp h
    have hpart :
        part m' f.name f.default (check f.type) = part m f.name f.default (check f.type) := by
      unfold part
      rw [hf]
    rw [checkFields, checkFields, ih hfs, checkField, checkField, hpart]

end Record

namespace Event

/-- A record of document values passes as it is where it fits, and not at all where it does not. -/
theorem throughDocument_ok {k : Kind} {m m' : Mapping} (h : Value.haveDocuments m = true) :
    throughDocument k m = .ok m' ↔ (Value.dict m).fits .record 0 = true ∧ m' = m := by
  have hread := Json.read_write (v := .dict m) h
  unfold throughDocument
  rw [Record.plainEntries_documents m h, ok_mapError, bind_ok]
  cases hfits : (Value.dict m).fits .record 0 with
  | true =>
    have hplain := Value.isPlain_of_isDocument (.dict m) h
    have hwritten : written none k (.dict m) = .ok (Json.write (.dict m)) := by
      rw [written, Json.excess?, Value.excess?_of_fits _ _ _ hplain hfits]
    rw [hfits] at hread
    obtain hread : Json.read .record (Json.write (.dict m)) = .ok (.dict m) := hread
    simp [hwritten, hread, bind, Except.bind, pure, Except.pure, eq_comm]
  | false =>
    rw [hfits] at hread
    obtain ⟨p, hread⟩ := hread
    have hrefused (chars : List Char) (hchars : written none k (.dict m) = .ok chars) :
        chars = Json.write (.dict m) := by
      unfold written at hchars
      split at hchars <;> cases hchars
      rfl
    refine iff_of_false ?_ (by simp)
    rintro ⟨plain, ⟨⟩, hrest⟩
    obtain ⟨chars, hchars, hrest⟩ := bind_ok.mp hrest
    rw [hrefused chars hchars, hread] at hrest
    cases hrest

end Event

end Detection
