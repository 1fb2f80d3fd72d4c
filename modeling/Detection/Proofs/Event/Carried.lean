import Mathlib.Data.List.Nodup
import Detection.Proofs.Event.Names
import Detection.Proofs.Loader.Supplied

/-! # Which pair carries which attribute

Two events of a kind that differ in one attribute differ in one pair at most, which carries it.
-/

namespace Detection

theorem Kind.shownNames_ne_time : ∀ k ∈ registered, ∀ f ∈ k.shownFields, f.name ≠ "time" := by
  decide

theorem Kind.shownFields_perm {k : Kind} (hk : k ∈ registered) :
    k.shownFields.Perm (k.fields.filter (·.name ≠ "time")) := by
  have hshown : k.shownFields.Nodup := List.Nodup.of_map Field.label (shownLabels_nodup k hk)
  have hfields : k.fields.Nodup := List.Nodup.of_map Field.name (fieldNames_nodup k hk)
  refine (List.perm_ext_iff_of_nodup hshown (hfields.filter _)).mpr fun f => ?_
  rw [List.mem_filter, decide_eq_true_eq, mem_fields_iff]
  constructor
  · intro hf
    exact ⟨.inr hf, shownNames_ne_time k hk f hf⟩
  · rintro ⟨rfl | hf, hname⟩
    · exact absurd rfl hname
    · exact hf

namespace Event

/-- The pairs are those of the attributes, one for each but the time, and show their values. Those
of the kind's own fields come in the order in which the kind declares them. -/
structure Carries (e : Event) (ps : List Pair) : Prop where
  each_once : ∃ text : Field → String,
    (∀ f ∈ e.kind.fields, f.name ≠ "time" → shownText f (e.get f.name) = .ok (text f)) ∧
      ps.Perm ((e.kind.fields.filter (·.name ≠ "time")).map fun f => (f.label, text f))
  distinct : (ps.map Prod.fst).Nodup
  declared_order : (ps.map Prod.fst).drop 9 =
    e.kind.details.map Field.label ++ ["confidence", "triage_scores"]

theorem carries_labelled {e : Event} (h : e.Loaded) {text : Field → String}
    (htext : ∀ f ∈ e.kind.shownFields, shownText f (e.get f.name) = .ok (text f)) :
    e.Carries (labelled text e.kind.shownFields) where
  each_once := by
    refine ⟨text, fun f hf hname => htext f ?_, (Kind.shownFields_perm h.registered).map _⟩
    exact (Kind.mem_fields_iff.mp hf).resolve_left fun htime => hname (by rw [htime]; rfl)
  distinct := by
    rw [map_fst_labelled]
    exact Kind.shownLabels_nodup _ h.registered
  declared_order := by
    obtain ⟨s, hs⟩ := Kind.exists_sides h.registered
    have hlength (shape : SideShape) (label : String) : (shape.names label).length = 3 := by
      cases shape <;> rfl
    have hfront : (["category", "sensor"] ++ s.originator.names "orig" ++
        s.responder.names "resp" ++ ["proto"]).length = 9 := by simp [hlength]
    rw [map_fst_labelled, Kind.shownLabels_eq h.registered hs, Kind.pairNames, List.append_assoc,
      List.drop_left' hfront, Kind.layoutLabels_eq h.registered]

/-- Two records' events of one kind that agree on all attributes but one have the same names, and
the same texts in all places but the one of the pair that carries this attribute. -/
theorem pairs_agree {record record' : Value} {e e' : Event} (h : ofRecord record = .ok e)
    (h' : ofRecord record' = .ok e') (hkind : e'.kind = e.kind) {changed : String}
    (hagree : ∀ name ∈ e.kind.fieldNames, name ≠ changed → e'.get name = e.get name) :
    ∃ ps ps', e.pairs = .ok ps ∧ e'.pairs = .ok ps' ∧ e.Carries ps ∧ e'.Carries ps' ∧
      ps'.map Prod.fst = ps.map Prod.fst ∧
      ∀ i : Nat, ps'[i]? ≠ ps[i]? → changed ≠ "time" ∧
        ∃ f ∈ e.kind.fields, f.name = changed ∧ (ps[i]?).map Prod.fst = some f.label := by
  have hloaded := loaded_of_ofRecord h
  obtain ⟨text, htext, hpairs⟩ := exists_texts hloaded
  obtain ⟨text', htext', hpairs'⟩ := exists_texts (loaded_of_ofRecord h')
  refine ⟨_, _, hpairs, hpairs', carries_labelled hloaded htext,
    carries_labelled (loaded_of_ofRecord h') htext', ?_, ?_⟩
  · rw [map_fst_labelled, map_fst_labelled, hkind]
  intro i hi
  rw [hkind] at htext' hi
  simp only [labelled, List.getElem?_map] at hi ⊢
  cases hf : e.kind.shownFields[i]? with
  | none => simp [hf] at hi
  | some f =>
    have hmem : f ∈ e.kind.shownFields := List.mem_of_getElem? hf
    have hfield : f ∈ e.kind.fields := Kind.mem_fields_iff.mpr (.inr hmem)
    -- an attribute on which both agree has one text
    have hname : f.name = changed := by
      by_contra hne
      have hvalue := hagree f.name (List.mem_map_of_mem hfield) hne
      have hsame : text' f = text f := by
        have heq := htext' f hmem
        rw [hvalue, htext f hmem] at heq
        exact (Except.ok.inj heq).symm
      exact hi (by rw [hf, Option.map_some, Option.map_some, hsame])
    exact ⟨hname ▸ Kind.shownNames_ne_time _ hloaded.registered f hmem, f, hfield, hname, rfl⟩

/-- Two mails from different senders differ in the text behind their sender's name at most. -/
theorem pairs_agree_mail :
    ∃ e e', ofRecord (.dict (mail [("from", "a")])) = .ok e ∧
      ofRecord (.dict (mail [("from", "b")])) = .ok e' ∧ e'.kind = e.kind ∧
      (∀ name ∈ e.kind.fieldNames, name ≠ "from_" → e'.get name = e.get name) ∧
      ∃ ps ps', e.pairs = .ok ps ∧ e'.pairs = .ok ps' ∧ e.Carries ps ∧ e'.Carries ps' ∧
        ps'.map Prod.fst = ps.map Prod.fst ∧
        ∀ i : Nat, ps'[i]? ≠ ps[i]? → "from_" ≠ "time" ∧
          ∃ f ∈ e.kind.fields, f.name = "from_" ∧ (ps[i]?).map Prod.fst = some f.label := by
  have hmail (sender : String)
      (h : (ofRecord (.dict (mail [("from", sender)]))).toOption.any
        (fun e => decide (e.kind = .blocklistSmtp)) = true) :
      ∃ e, ofRecord (.dict (mail [("from", sender)])) = .ok e ∧ e.kind = .blocklistSmtp := by
    obtain ⟨e, he, hkind⟩ := exists_of_any h
    exact ⟨e, he, of_decide_eq_true hkind⟩
  obtain ⟨e, he, hkind⟩ := hmail "a" (by decide +kernel)
  obtain ⟨e', he', hkind'⟩ := hmail "b" (by decide +kernel)
  have hagree : ∀ name ∈ e.kind.fieldNames, name ≠ "from_" → e'.get name = e.get name := by
    intro name hname hne
    obtain ⟨f, hf, rfl⟩ := List.mem_map.mp hname
    have hkey : fieldName? e.kind (.text "from") = some "from_" := by
      rw [hkind]
      rfl
    exact get_of_change (by decide +kernel) (by decide +kernel) he he' (hkind'.trans hkind.symm) hf
      (by rw [hkey]; exact fun h => hne (Option.some.inj h).symm)
  exact ⟨e, e', he, he', hkind'.trans hkind.symm, hagree,
    pairs_agree he he' (hkind'.trans hkind.symm) hagree⟩

end Event

end Detection
