import Detection.Proofs.Loader.Supplied
import Detection.Proofs.Record.Accepted

/-! # What is reported of a record that is refused

A field is judged by what is supplied for it, and by nothing else. The issues of all fields come
together, in the order in which the fields are declared.
-/

namespace Detection

/-- What is supplied for the field will not do: it has no accepted form, or is not there and the
field has no default. -/
def Field.Refuses (f : Field) : Option Value → Prop
  | some v => ¬ f.type.Accepts v
  | none => f.default = none

/-- Errors about the values of a record. The others are about a kind that cannot be looked up at all,
about values that do not fit together, or about a text that cannot be made. -/
def LoadError.isRefusal : LoadError → Bool
  | .unhashable _ | .make _ | .unmade _ => false
  | _ => true

namespace Record

/-! ## Issues -/

namespace Checked

variable {α β : Type}

def issues : Checked α → List Issue
  | .ok _ => []
  | .error is => is

def Reports (c : Checked α) : Prop := c.issues = [] → ∃ x, c = .ok x

theorem eq_error {c : Checked α} (h : c.issues ≠ []) : c = .error c.issues := by
  cases c with
  | ok x => exact absurd rfl h
  | error is => rfl

theorem issues_map (c : Checked α) (f : α → β) : issues (c.map f) = c.issues := by
  cases c <;> rfl

theorem issues_under (c : Checked α) (step : String) :
    (c.under step).issues = c.issues.map (·.under step) := by
  cases c <;> rfl

theorem issues_both (a : Checked α) (b : Checked β) :
    (both a b).issues = a.issues ++ b.issues := by
  cases a <;> cases b <;> simp [both, issues]

theorem reports_ok (x : α) : Reports (.ok x : Checked α) := fun _ => ⟨x, rfl⟩

theorem reports_wrong (cause : Cause) : Reports (wrong cause : Checked α) := fun h => by cases h

theorem Reports.map {c : Checked α} (h : c.Reports) (f : α → β) :
    Reports (c.map f : Checked β) := by
  intro hnone
  rw [issues_map] at hnone
  obtain ⟨x, rfl⟩ := h hnone
  exact ⟨f x, rfl⟩

theorem Reports.under {c : Checked α} (h : c.Reports) (step : String) : (c.under step).Reports := by
  intro hnone
  rw [issues_under, List.map_eq_nil_iff] at hnone
  obtain ⟨x, rfl⟩ := h hnone
  exact ⟨x, rfl⟩

theorem Reports.both {a : Checked α} {b : Checked β} (ha : a.Reports) (hb : b.Reports) :
    (both a b).Reports := by
  intro hnone
  rw [issues_both, List.append_eq_nil_iff] at hnone
  obtain ⟨x, rfl⟩ := ha hnone.1
  obtain ⟨y, rfl⟩ := hb hnone.2
  exact ⟨(x, y), rfl⟩

theorem reports_allFrom {cs : List (Checked α)} (h : ∀ c ∈ cs, c.Reports) (index : Nat) :
    (allFrom index cs).Reports := by
  induction cs generalizing index with
  | nil => exact reports_ok []
  | cons c cs ih =>
    obtain ⟨hc, hcs⟩ := List.forall_mem_cons.mp h
    exact ((hc.under _).both (ih hcs _)).map _

end Checked

open Checked

theorem reports_part {entries : Mapping} {name : String} {default : Option Value}
    {check : Value → Checked Value} (h : ∀ v, (check v).Reports) :
    (part entries name default check).Reports := by
  unfold part
  split
  · exact (h _).under name
  · exact reports_ok _
  · exact (reports_wrong .required).under name

theorem reports_checkText (v : Value) : (checkText v).Reports := by
  unfold checkText
  split
  · exact reports_ok _
  · exact reports_wrong _

theorem reports_checkInteger (v : Value) : (checkInteger v).Reports := by
  unfold checkInteger
  split
  · exact reports_ok _
  · exact reports_wrong _

theorem reports_checkNumber (v : Value) : (checkNumber v).Reports := by
  unfold checkNumber
  split
  · exact reports_ok _
  · exact reports_ok _
  · exact reports_wrong _

theorem reports_checkScore (v : Value) : (checkScore v).Reports := by
  unfold checkScore
  split
  · exact ((reports_part reports_checkInteger).both (reports_part reports_checkNumber)).map _
  · exact reports_wrong _

theorem reports_checkCommand (v : Value) : (checkCommand v).Reports := by
  unfold checkCommand
  split
  · have htext {entries : Mapping} {name : String} {default : Option Value} :
        (part entries name default checkText).Reports := reports_part reports_checkText
    exact (htext.both (htext.both htext)).map _
  · exact reports_wrong _

theorem reports_checkTextPair (v : Value) : (checkTextPair v).Reports := by
  unfold checkTextPair
  split
  · split
    · exact reports_wrong _
    · apply Reports.map
      apply reports_allFrom
      intro c hc
      rcases List.mem_append.mp hc with hc | hc
      · obtain ⟨x, -, rfl⟩ := List.mem_map.mp hc
        exact reports_checkText x
      · rw [List.eq_of_mem_replicate hc]
        exact reports_wrong _
  · exact reports_wrong _

theorem reports_wired (r : Except Wire.Error Value) : (wired r).Reports := by
  cases r with
  | ok v => exact reports_ok v
  | error cause => exact reports_wrong _

theorem reports_check (t : FieldType) (v : Value) : (check t v).Reports := by
  induction t generalizing v with
  | text => exact reports_checkText v
  | integer => exact reports_checkInteger v
  | number => exact reports_checkNumber v
  | flag =>
    simp only [check]
    split
    · exact reports_ok _
    · exact reports_wrong _
  | address | time | country | payload | category => exact reports_wired _
  | textPair => exact reports_checkTextPair v
  | score => exact reports_checkScore v
  | command => exact reports_checkCommand v
  | optional t ih =>
    simp only [check]
    split
    · exact reports_ok _
    · exact ih v
  | sequence t ih =>
    simp only [check]
    split
    · apply Reports.map
      apply reports_allFrom
      intro c hc
      obtain ⟨x, -, rfl⟩ := List.mem_map.mp hc
      exact ih x
    · exact reports_wrong _

/-! ## Verdicts -/

def verdict (f : Field) : Option Value → List Issue
  | some v => ((check f.type v).under f.name).issues
  | none => if f.default.isNone then [⟨[f.name], .required⟩] else []

theorem issues_checkField (entries : Mapping) (f : Field) :
    (checkField entries f).issues = verdict f (entries.get? (.text f.name)) := by
  rw [checkField, issues_map]
  unfold part verdict
  cases entries.get? (.text f.name) with
  | some v => rfl
  | none => cases f.default <;> rfl

theorem issues_checkFields (entries : Mapping) (fs : List Field) :
    (checkFields entries fs).issues =
      fs.flatMap fun f => verdict f (entries.get? (.text f.name)) := by
  induction fs with
  | nil => rfl
  | cons f fs ih =>
    rw [checkFields, issues_map, issues_both, issues_checkField, ih, List.flatMap_cons]

theorem reports_checkFields (entries : Mapping) (fs : List Field) :
    (checkFields entries fs).Reports := by
  induction fs with
  | nil => exact reports_ok []
  | cons f fs ih => exact (((reports_part (reports_check f.type)).map _).both ih).map _

theorem verdict_ne_nil_iff {f : Field} {supplied : Option Value}
    (h : ∀ v, supplied = some v → v.isDocument = true) :
    verdict f supplied ≠ [] ↔ f.Refuses supplied := by
  cases supplied with
  | none => cases hdefault : f.default <;> simp [verdict, Field.Refuses, hdefault]
  | some v =>
    rw [Field.Refuses, ← exists_check_iff (h v rfl), verdict, issues_under, ne_eq,
      List.map_eq_nil_iff]
    constructor
    · rintro hissues ⟨w, hw⟩
      rw [hw] at hissues
      exact hissues rfl
    · intro hrefused hnone
      exact hrefused (reports_check f.type v hnone)

end Record

namespace Event

/-! ## Records that name a kind -/

section Kinds

variable {entries m : Mapping} {kind : Value} {k : Kind}

theorem ofRecord_of_findKind (hkind : entries.get? (.text "kind") = some kind)
    (hfind : findKind kind = .ok k) :
    ofRecord (.dict entries) = ofEntries k (entries.erase (.text "kind")) := by
  rw [ofRecord, hkind]
  split
  · rename_i heq
    cases heq
  · rename_i heq
    cases heq
    cases hfind
  · rename_i heq
    cases heq
    rw [hfind]
    rfl

theorem mem_erase_kind {a : Value × Value} :
    a ∈ entries.erase (.text "kind") ↔ a ∈ entries ∧ a.1 ≠ .text "kind" := by
  rw [Mapping.erase, List.mem_filter, Bool.not_eq_true', ← Bool.not_eq_true, Mapping.sameKey_text]

theorem exists_named_erase (hkeys : ∀ a ∈ entries, a.1 ≠ .text "kind" →
    ∃ name, fieldName? k a.1 = some name) :
    ∃ m, named k [] (entries.erase (.text "kind")) = .ok m := by
  apply exists_named
  intro a ha
  obtain ⟨hmem, hkey⟩ := mem_erase_kind.mp ha
  exact hkeys a hmem hkey

theorem fieldNames_of_all (h : entries.all (fun a => Mapping.sameKey a.1 (.text "kind") ||
    (fieldName? k a.1).isSome) = true) :
    ∀ a ∈ entries, a.1 ≠ .text "kind" → ∃ name, fieldName? k a.1 = some name := by
  intro a ha hkey
  have hknown := List.all_eq_true.mp h a ha
  rw [Bool.or_eq_true, Mapping.sameKey_text] at hknown
  exact Option.isSome_iff_exists.mp (hknown.resolve_left hkey)

theorem get?_named_erase (hk : k ∈ Kind.registered)
    (hnamed : named k [] (entries.erase (.text "kind")) = .ok m) (name : String) :
    m.get? (.text name) = supplied? k entries name := by
  rw [get?_named hnamed, supplied?_erase hk]
  exact Option.or_none

theorem fits_named (hdocument : (Value.dict entries).isDocument = true)
    (hnamed : named k [] (entries.erase (.text "kind")) = .ok m) {d : Json.Dialect} {depth : Nat}
    (hfits : (Value.dict entries).fits d depth = true) : (Value.dict m).fits d depth = true := by
  obtain ⟨hm, htexts⟩ := named_documents hnamed ⟨rfl, by simp⟩ fun a ha =>
    Value.isDocument_of_mem hdocument (mem_erase_kind.mp ha).1
  refine fits_of_forall hm htexts (allows_of_fits hfits) fun name v hv => ?_
  rw [get?_named hnamed] at hv
  obtain ⟨key, hmem, -⟩ := mem_of_supplied? (hv.symm.trans Option.or_none).symm
  exact fits_of_mem hfits (mem_erase_kind.mp hmem).1

theorem ofEntries_eq (hdocuments : ∀ a ∈ entries, a.2.isDocument = true)
    (hnamed : named k [] entries = .ok m) (hfits : (Value.dict m).fits .record 0 = true) :
    ofEntries k entries =
      match Record.checkFields m k.fields with
      | .error issues => .error (.invalid k issues)
      | .ok attributes => (make k attributes).mapError .make := by
  obtain ⟨hm, -⟩ := named_documents hnamed ⟨rfl, by simp⟩ hdocuments
  have hthrough := (throughDocument_ok (k := k) hm).mpr ⟨hfits, rfl⟩
  simp only [ofEntries, hnamed, hthrough, bind, Except.bind]
  rfl

def issues (k : Kind) (entries : Mapping) : List Record.Issue :=
  k.fields.flatMap fun f => Record.verdict f (supplied? k entries f.name)

theorem issues_checkFields_named (hk : k ∈ Kind.registered)
    (hnamed : named k [] (entries.erase (.text "kind")) = .ok m) :
    (Record.checkFields m k.fields).issues = issues k entries := by
  simp only [Record.issues_checkFields, get?_named_erase hk hnamed, issues]

theorem issues_eq_nil_iff (hdocument : (Value.dict entries).isDocument = true) :
    issues k entries = [] ↔ ∀ f ∈ k.fields, ¬ f.Refuses (supplied? k entries f.name) := by
  simp only [issues, List.flatMap_eq_nil_iff]
  refine forall₂_congr fun f _ => ?_
  rw [← Record.verdict_ne_nil_iff, not_not]
  intro v hv
  obtain ⟨key, hmem, -⟩ := mem_of_supplied? hv
  exact Value.isDocument_of_mem hdocument hmem

/-! ## How a record ends that names a kind and has keys for its fields only -/

section Outcomes

variable (hdocument : (Value.dict entries).isDocument = true)
  (hkind : entries.get? (.text "kind") = some kind) (hfind : findKind kind = .ok k)
  (hkeys : ∀ a ∈ entries, a.1 ≠ .text "kind" → ∃ name, fieldName? k a.1 = some name)
  (hfits : (Value.dict entries).fits .record 0 = true)

include hdocument hkind hfind hkeys hfits

theorem ofRecord_eq : ∃ m, named k [] (entries.erase (.text "kind")) = .ok m ∧
    ofRecord (.dict entries) =
      match Record.checkFields m k.fields with
      | .error issues => .error (.invalid k issues)
      | .ok attributes => (make k attributes).mapError .make := by
  obtain ⟨m, hnamed⟩ := exists_named_erase hkeys
  have hdocuments : ∀ a ∈ entries.erase (.text "kind"), a.2.isDocument = true := fun a ha =>
    Value.isDocument_of_mem hdocument (mem_erase_kind.mp ha).1
  refine ⟨m, hnamed, ?_⟩
  rw [ofRecord_of_findKind hkind hfind,
    ofEntries_eq hdocuments hnamed (fits_named hdocument hnamed hfits)]

theorem ofRecord_invalid (hissues : issues k entries ≠ []) :
    ofRecord (.dict entries) = .error (.invalid k (issues k entries)) := by
  obtain ⟨m, hnamed, heq⟩ := ofRecord_eq hdocument hkind hfind hkeys hfits
  have hall := issues_checkFields_named (registered_of_findKind hfind) hnamed
  have herror := Record.Checked.eq_error (hall.symm ▸ hissues)
  rw [heq, herror, hall]

theorem ofRecord_valid (hissues : issues k entries = []) :
    ∃ m attributes, named k [] (entries.erase (.text "kind")) = .ok m ∧
      (Value.dict m).fits .record 0 = true ∧ Record.checkFields m k.fields = .ok attributes ∧
      ofRecord (.dict entries) = (make k attributes).mapError .make := by
  obtain ⟨m, hnamed, heq⟩ := ofRecord_eq hdocument hkind hfind hkeys hfits
  have hall := issues_checkFields_named (registered_of_findKind hfind) hnamed
  obtain ⟨attributes, hchecked⟩ := Record.reports_checkFields m k.fields (hall.trans hissues)
  refine ⟨m, attributes, hnamed, fits_named hdocument hnamed hfits, hchecked, ?_⟩
  rw [heq, hchecked]

end Outcomes

/-! ## Records that no reader takes back -/

theorem isText_of_findKind (hfind : findKind kind = .ok k) : kind.isText = true := by
  obtain ⟨s, rfl, -⟩ := findKind_ok.mp hfind
  rfl

section Unfit

variable (hdocument : (Value.dict entries).isDocument = true)
  (hkind : entries.get? (.text "kind") = some kind) (hfind : findKind kind = .ok k)
  (hkeys : ∀ a ∈ entries, a.1 ≠ .text "kind" → ∃ name, fieldName? k a.1 = some name)

include hdocument hkind hfind hkeys

/-- A value that is kept, and goes too deep, has too long a number or a surrogate that stands alone, is
refused. -/
theorem ofRecord_unfit_value {name : String} {v : Value}
    (hsupplied : supplied? k entries name = some v) (hunfit : v.fits .record 1 ≠ true) :
    ∃ err, ofRecord (.dict entries) = .error err ∧ err.isRefusal = true := by
  obtain ⟨m, hnamed⟩ := exists_named_erase hkeys
  obtain ⟨hm, -⟩ := named_documents hnamed ⟨rfl, by simp⟩ fun a ha =>
    Value.isDocument_of_mem hdocument (mem_erase_kind.mp ha).1
  rw [ofRecord_of_findKind hkind hfind]
  simp only [ofEntries, hnamed, bind, Except.bind]
  cases hthrough : throughDocument k m with
  | ok m' =>
    obtain ⟨hfits, -⟩ := (throughDocument_ok hm).mp hthrough
    rw [← get?_named_erase (registered_of_findKind hfind) hnamed] at hsupplied
    exact absurd (fits_of_mem hfits (Mapping.mem_of_get? hsupplied)) hunfit
  | error err =>
    refine ⟨err, rfl, ?_⟩
    rcases throughDocument_error hthrough with
      ⟨cause, rfl⟩ | ⟨cause, column, rfl⟩ | rfl | ⟨doing, hdeep, -⟩
    · rfl
    · rfl
    · rfl
    · exact absurd hdeep not_isTooDeep

theorem ofRecord_unfit (hapart : Apart k entries)
    (hunfit : (Value.dict entries).fits .record 0 ≠ true) :
    ∃ err, ofRecord (.dict entries) = .error err ∧ err.isRefusal = true := by
  by_contra hnone
  apply hunfit
  rw [Value.fits, Bool.and_eq_true, Value.fitEntries_iff]
  refine ⟨rfl, fun a ha => ?_⟩
  by_cases hkey : a.1 = .text "kind"
  · -- the kind is text, and no deeper than the record
    have hvalue : a.2 = kind :=
      Value.eq_of_name hdocument (hkey ▸ ha) (Mapping.mem_of_get? hkind)
    have htext := isText_of_findKind hfind
    rw [hkey, hvalue]
    cases kind <;> first | exact ⟨rfl, rfl⟩ | cases htext
  · obtain ⟨name, hname⟩ := hkeys a ha hkey
    obtain ⟨s, hs, -⟩ := fieldName?_eq_some hname
    refine ⟨by rw [hs]; rfl, ?_⟩
    by_contra hvalue
    have hsupplied := (supplied?_eq_some_iff hapart).mpr ⟨a.1, ha, hname⟩
    exact hnone (ofRecord_unfit_value hdocument hkind hfind hkeys hsupplied hvalue)

end Unfit

end Kinds

/-! ## What an error says -/

end Event

end Detection
