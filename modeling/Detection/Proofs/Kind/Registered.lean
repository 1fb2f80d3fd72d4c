import Mathlib.Data.List.Nodup
import Detection.Proofs.Record.Admitted

/-! # What the tables of the registered kinds have in common -/

namespace Detection.Kind

theorem registered_of_find? {text : String} {k : Kind} (h : find? text = some k) :
    k ∈ registered := by
  unfold find? at h
  rcases Option.or_eq_some_iff.mp h with h | ⟨-, h⟩
  · exact List.mem_of_find?_eq_some h
  · exact List.mem_of_find?_eq_some h

theorem sides_isSome : ∀ k ∈ registered, k.sides?.isSome := by decide

theorem exists_sides {k : Kind} (hk : k ∈ registered) : ∃ s, k.sides? = some s :=
  Option.isSome_iff_exists.mp (sides_isSome k hk)

theorem fieldNames_nodup : ∀ k ∈ registered, k.fieldNames.Nodup := by decide +kernel

theorem eq_of_name {k : Kind} (hk : k ∈ registered) {f g : Field} (hf : f ∈ k.fields)
    (hg : g ∈ k.fields) (h : f.name = g.name) : f = g :=
  List.inj_on_of_nodup_map (fieldNames_nodup k hk) hf hg h

def isNameChar (c : Char) : Bool :=
  ('a' ≤ c && c ≤ 'z') || ('0' ≤ c && c ≤ '9') || c = '_'

theorem fieldNames_spelled : ∀ k ∈ registered, ∀ name ∈ k.fieldNames,
    name.toList.all isNameChar = true ∧
      (name.toList.getLast? = some '_' → k = .blocklistSmtp ∧ name = "from_") := by
  decide +kernel

theorem all_defaults_admitted :
    ∀ k ∈ registered, ∀ f ∈ k.fields, f.default.all f.type.admits := by decide

theorem default_admits {k : Kind} (hk : k ∈ registered) {f : Field} (hf : f ∈ k.fields) {v : Value}
    (hv : f.default = some v) : f.type.Admits v := by
  have hall := all_defaults_admitted k hk f hf
  rw [hv, Option.all_some] at hall
  exact FieldType.admits_of_admits hall

theorem sideFields_subset {k : Kind} {s : Sides} (hs : k.sides? = some s) {f : Field}
    (hf : f ∈ s.fields) : f ∈ k.fields := by
  simp only [fields, sideFields, hs, List.mem_append]
  exact .inl (.inr hf)

end Detection.Kind
