import Detection.Proofs.Mapping.Keys
import Detection.Proofs.Success
import Detection.Yaml.Document

/-! # The mappings a document spells out have one entry for a key

Keys are scalars, which are equal to themselves. The entries of a mapping are put one by one into an
empty one, where a key that comes again finds its place taken.
-/

namespace Detection.Yaml

open Mapping (sameKey)
open Value (areKeyed)

variable {cs : List Char} {v : Value}

/-! ## Scalars -/

/-- A value that can be a key and has nothing below it. -/
def IsSimple (v : Value) : Prop := sameKey v v = true ∧ v.isKeyed = true

theorem isSimple_points (points : Points) : IsSimple (Json.ofPoints points) := by
  unfold Json.ofPoints IsSimple
  split <;> simp [sameKey, Value.isKeyed]

theorem isSimple_integer (h : ScalarValue.integer cs = .ok v) : IsSimple v := by
  unfold ScalarValue.integer at h
  obtain ⟨n, -, h⟩ := bind_ok.mp h
  cases h
  simp [IsSimple, sameKey, Value.integer?, Value.isKeyed]

theorem isSimple_flag (h : ScalarValue.flag cs = .ok v) : IsSimple v := by
  unfold ScalarValue.flag at h
  simp only at h
  split at h
  · cases h
    simp [IsSimple, sameKey, Value.integer?, Value.isKeyed]
  · cases h

theorem isSimple_real (h : ScalarValue.real cs = .ok v) : IsSimple v := by
  have hreal (x : Binary64) : IsSimple (.real x) := by simp [IsSimple, sameKey, Value.isKeyed]
  unfold ScalarValue.real at h
  simp only at h
  split at h
  · cases h
  · split at h
    · cases h
      exact hreal _
    · split at h
      · cases h
        exact hreal _
      · split at h
        · obtain ⟨parts, -, h⟩ := bind_ok.mp h
          obtain ⟨x, -, h⟩ := bind_ok.mp h
          cases h
          exact hreal _
        · obtain ⟨x, -, h⟩ := bind_ok.mp h
          cases h
          exact hreal _

theorem isSimple_time (h : ScalarValue.time cs = .ok v) : IsSimple v := by
  unfold ScalarValue.time at h
  split at h
  · split at h
    · obtain ⟨date, -, h⟩ := bind_ok.mp h
      cases h
      simp [IsSimple, sameKey, Value.isKeyed]
    · simp only at h
      split at h
      on_goal 2 => split at h
      all_goals
        obtain ⟨offset, -, h⟩ := bind_ok.mp h
        obtain ⟨date, -, h⟩ := bind_ok.mp h
        obtain ⟨clock, -, h⟩ := bind_ok.mp h
        cases h
        simp [IsSimple, sameKey, Value.isKeyed]
  · cases h

theorem isSimple_scalarValue {type : ScalarType} {points : Points}
    (h : scalarValue type points = .ok v) : IsSimple v := by
  cases type with
  | null =>
    cases h
    exact ⟨rfl, rfl⟩
  | flag => exact isSimple_flag h
  | integer => exact isSimple_integer h
  | real => exact isSimple_real h
  | time => exact isSimple_time h
  | text =>
    cases h
    exact isSimple_points points
  | merge => cases h
  | default => cases h

namespace Node

/-! ## Entries -/

/-- Entries that can be put into a mapping with one entry for a key. -/
def AreEntries (entries : Mapping) : Prop :=
  ∀ e ∈ entries, sameKey e.1 e.1 = true ∧ e.2.isKeyed = true

theorem areEntries_append {a b : Mapping} : AreEntries (a ++ b) ↔ AreEntries a ∧ AreEntries b :=
  List.forall_mem_append

theorem areKeyed_gather {entries : Mapping} (h : AreEntries entries) :
    areKeyed (gather entries) = true := by
  have hput {m : Mapping} (hm : areKeyed m = true) :
      areKeyed (entries.foldl (fun m e => m.put e.1 e.2) m) = true := by
    induction entries generalizing m with
    | nil => exact hm
    | cons e es ih =>
      obtain ⟨he, hes⟩ := List.forall_mem_cons.mp h
      exact ih hes (Value.areKeyed_put hm he.1 he.2)
  exact hput rfl

theorem keyValue_ok {n : Node} (h : n.keyValue = .ok v) : IsSimple v := by
  cases n with
  | scalar tag style points =>
    rw [keyValue] at h
    obtain ⟨type, -, h⟩ := bind_ok.mp h
    exact isSimple_scalarValue h
  | _ =>
    rw [keyValue] at h
    cases h

mutual

theorem isKeyed_value : ∀ (n : Node) (v : Value), n.value = .ok v → v.isKeyed = true
  | .scalar tag style points, v, h => by
    rw [value] at h
    obtain ⟨type, -, h⟩ := bind_ok.mp h
    exact (isSimple_scalarValue h).2
  | .sequence tag items, v, h => by
    rw [value] at h
    split at h
    · obtain ⟨vs, -, h⟩ := bind_ok.mp h
      cases h
      rfl
    · cases h
  | .mapping tag entries, v, h => by
    rw [value] at h
    split at h
    · obtain ⟨⟨merged, own⟩, hentries, h⟩ := bind_ok.mp h
      cases h
      exact areKeyed_gather (areEntries_entryValues entries merged own hentries)
    · cases h

theorem areEntries_entryValues : ∀ (entries : List (Node × Node)) (merged own : Mapping),
    entryValues entries = .ok (merged, own) → AreEntries (merged ++ own)
  | [], merged, own, h => by
    rw [entryValues] at h
    cases h
    exact nofun
  | (k, v) :: rest, merged, own, h => by
    rw [entryValues] at h
    split at h
    · -- what a merge key brings in stands in front
      have hbrought (brought : Mapping) (hentries : AreEntries brought)
          (h : (do
            let (merged, own) ← entryValues rest
            pure (brought ++ merged, own)) = Except.ok (merged, own)) :
          AreEntries (merged ++ own) := by
        obtain ⟨⟨merged', own'⟩, hrest, h⟩ := bind_ok.mp h
        cases h
        rw [List.append_assoc]
        exact areEntries_append.mpr ⟨hentries, areEntries_entryValues rest merged' own hrest⟩
      cases v with
      | mapping tag entries =>
        obtain ⟨⟨below, its⟩, hentries, h⟩ := bind_ok.mp h
        exact hbrought _ (areEntries_entryValues entries below its hentries) h
      | sequence tag items =>
        obtain ⟨brought, hitems, h⟩ := bind_ok.mp h
        exact hbrought _ (areEntries_mergedValues items brought hitems) h
      | scalar tag style points => cases h
    · obtain ⟨key, hkey, h⟩ := bind_ok.mp h
      simp only at h
      split at h
      · cases h
      · obtain ⟨x, hx, h⟩ := bind_ok.mp h
        obtain ⟨⟨merged', own'⟩, hrest, h⟩ := bind_ok.mp h
        cases h
        obtain ⟨hmerged, hown⟩ :=
          areEntries_append.mp (areEntries_entryValues rest merged' own' hrest)
        have hentry := And.intro (keyValue_ok hkey).1 (isKeyed_value v x hx)
        exact areEntries_append.mpr ⟨hmerged, List.forall_mem_cons.mpr ⟨hentry, hown⟩⟩

theorem areEntries_mergedValues : ∀ (ns : List Node) (entries : Mapping),
    mergedValues ns = .ok entries → AreEntries entries
  | [], entries, h => by
    rw [mergedValues] at h
    cases h
    exact nofun
  | n :: ns, entries, h => by
    unfold mergedValues at h
    simp only at h
    cases n with
    | mapping tag es =>
      obtain ⟨⟨merged, own⟩, hes, h⟩ := bind_ok.mp h
      obtain ⟨first, hfirst, h⟩ := bind_ok.mp h
      cases hfirst
      obtain ⟨others, hothers, h⟩ := bind_ok.mp h
      cases h
      exact areEntries_append.mpr
        ⟨areEntries_mergedValues ns others hothers, areEntries_entryValues es merged own hes⟩
    | _ => cases h

end

end Node

theorem isKeyed_read (h : read cs = .ok v) : v.isKeyed = true := by
  unfold read at h
  obtain ⟨tokens, -, h⟩ := bind_ok.mp h
  obtain ⟨node, -, h⟩ := bind_ok.mp h
  cases node with
  | some n => exact n.isKeyed_value v h
  | none =>
    cases h
    rfl

end Detection.Yaml
