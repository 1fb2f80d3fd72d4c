import Detection.Proofs.Loader.Supplied
import Detection.Proofs.Record.ComesBack

/-! # Events that are loaded from their own attributes

An event can be told as a record again: its kind, and each attribute as the event has it. The record
passes through a document on its way, and so some values change and some are refused.
-/

namespace Detection

open FieldType (Admits)

namespace Record

/-- The form of a value in a document, where there is one. -/
def formOf (v : Value) : Value := (plain v).toOption.getD .none

theorem plain_formOf {v : Value} (h : ∃ x, plain v = .ok x) : plain v = .ok (formOf v) := by
  obtain ⟨x, hx⟩ := h
  rw [formOf, hx]
  rfl

theorem plainEntries_ok {es m : Mapping} :
    plainEntries es = .ok m ↔
      (∀ a ∈ es, ∃ x, plain a.2 = .ok x) ∧ m = es.map fun a => (a.1, formOf a.2) := by
  induction es generalizing m with
  | nil => simp [plainEntries, eq_comm]
  | cons a es ih =>
    obtain ⟨key, v⟩ := a
    rw [plainEntries, bind_ok, List.forall_mem_cons]
    simp only [bind_ok, ih]
    constructor
    · rintro ⟨x, hx, _, ⟨hes, rfl⟩, heq⟩
      cases heq
      refine ⟨⟨⟨x, hx⟩, hes⟩, ?_⟩
      rw [List.map_cons, formOf, hx]
      rfl
    · rintro ⟨⟨hv, hes⟩, rfl⟩
      exact ⟨_, plain_formOf hv, _, ⟨hes, rfl⟩, rfl⟩

theorem eq_none_of_check {t : FieldType} {v : Value} {depth : Nat}
    (hfits : v.fits .record depth = true) (h : check t v = .ok .none) : v = .none := by
  induction t with
  | country =>
    rw [check, wired_ok, Wire.country.eq_def] at h
    split at h
    · rfl
    · cases h
    · cases h
    · obtain ⟨bs, ⟨⟩⟩ := byteList_ok h
    · cases h
  | category =>
    rw [check, wired_ok, Wire.category.eq_def] at h
    split at h
    · rfl
    · cases h
    · split at h <;> cases h
    · cases h
    · cases h
  | optional t ih =>
    simp only [check] at h
    split at h
    · rfl
    · exact ih h
  | _ => cases check_admits hfits h

theorem checkFields_of_parts {entries : Mapping} {fs : List Field} {g : Field → Value}
    (h : ∀ f ∈ fs, part entries f.name f.default (check f.type) = .ok (g f)) :
    checkFields entries fs = .ok (fs.map fun f => (f.name, g f)) := by
  induction fs with
  | nil => rfl
  | cons f fs ih =>
    obtain ⟨hf, hfs⟩ := List.forall_mem_cons.mp h
    have hfirst : checkField entries f = .ok (f.name, g f) := map_ok.mpr ⟨g f, hf, rfl⟩
    exact map_ok.mpr ⟨(_, _), both_ok.mpr ⟨hfirst, ih hfs⟩, rfl⟩

end Record

namespace Event

/-! ## Events by their attributes -/

theorem eq_of_lookup {attributes : List (String × Value)} {fs : List Field}
    (hnames : attributes.map Prod.fst = fs.map Field.name) (hnodup : (fs.map Field.name).Nodup) :
    attributes = fs.map fun f => (f.name, (attributes.lookup f.name).getD .none) := by
  induction fs generalizing attributes with
  | nil => simpa using hnames
  | cons f fs ih =>
    cases attributes with
    | nil => cases hnames
    | cons a attributes =>
      rw [List.map_cons, List.map_cons, List.cons.injEq] at hnames
      rw [List.map_cons, List.nodup_cons] at hnodup
      obtain ⟨name, v⟩ := a
      obtain ⟨rfl, hrest⟩ := hnames
      have hothers : ∀ g ∈ fs, ((f.name, v) :: attributes).lookup g.name =
          attributes.lookup g.name := by
        intro g hg
        have hne : g.name ≠ f.name := fun heq => hnodup.1 (heq ▸ List.mem_map_of_mem hg)
        rw [List.lookup_cons, beq_false_of_ne hne]
      rw [List.map_cons, List.lookup_cons_self, Option.getD_some, List.cons.injEq]
      refine ⟨rfl, (ih hrest hnodup.2).trans (List.map_congr_left fun g hg => ?_)⟩
      rw [hothers g hg]

theorem attributes_eq {e : Event} (hk : e.kind ∈ Kind.registered) :
    e.attributes = e.kind.fields.map fun f => (f.name, e.get f.name) :=
  eq_of_lookup e.names_eq (Kind.fieldNames_nodup _ hk)

theorem eq_of_get {e e' : Event} (hk : e.kind ∈ Kind.registered) (hkind : e'.kind = e.kind)
    (hget : ∀ f ∈ e.kind.fields, e'.get f.name = e.get f.name) : e' = e := by
  have hattributes : e'.attributes = e.attributes := by
    rw [attributes_eq hk, attributes_eq (hkind ▸ hk), hkind]
    exact List.map_congr_left fun f hf => by rw [hget f hf]
  cases e
  cases e'
  simp only [Event.mk.injEq]
  exact ⟨hkind, hattributes⟩

theorem lookup_attributes {e : Event} {f : Field} (hf : f ∈ e.kind.fields) :
    e.attributes.lookup f.name = some (e.get f.name) := by
  have hname : f.name ∈ e.attributes.map Prod.fst := by
    rw [e.names_eq]
    exact List.mem_map_of_mem hf
  obtain ⟨a, ha, hfst⟩ := List.mem_map.mp hname
  obtain ⟨v, hv⟩ := Option.isSome_iff_exists.mp
    (List.lookup_isSome_iff.mpr ⟨a, ha, beq_iff_eq.mpr hfst.symm⟩)
  rw [get, hv, Option.getD_some]

theorem make_attributes {e : Event} (h : e.Loaded) : make e.kind e.attributes = .ok e := by
  obtain ⟨e', hkind, hmake, hget⟩ := make_eq h.registered
    fun f hf => ⟨_, lookup_attributes hf, h.admits f hf⟩
  have heq : e' = e := eq_of_get h.registered hkind fun f hf => by
    have hsettle := (hget f hf).2.2 _ (lookup_attributes hf)
    exact Except.ok.inj (hsettle.symm.trans (h.settled f hf))
  rw [hmake, heq, h.sides]
  rfl

/-! ## Records that have a value for each field -/

def recordOf (k : Kind) (g : Field → Value) : Mapping := k.fields.map fun f => (.text f.name, g f)

section RecordOf

variable {k : Kind} (hk : k ∈ Kind.registered) (g : Field → Value)

include hk

theorem fieldName?_name {f : Field} (hf : f ∈ k.fields) :
    fieldName? k (.text f.name) = some f.name := by
  have hall : ∀ k ∈ Kind.registered, ∀ name ∈ k.fieldNames, attributeName name = name := by
    decide +kernel
  have hname : f.name ∈ k.fieldNames := List.mem_map_of_mem hf
  rw [fieldName?, hall k hk _ hname, if_pos hname]

theorem named_recordOf : named k [] (recordOf k g) = .ok (recordOf k g) := by
  have hnamed (fs : List Field) (sofar : Mapping) (hfs : ∀ f ∈ fs, f ∈ k.fields)
      (hnodup : (fs.map Field.name).Nodup)
      (hfresh : ∀ f ∈ fs, ∀ a ∈ sofar, Mapping.sameKey a.1 (.text f.name) = false) :
      named k sofar (fs.map fun f => (.text f.name, g f)) =
        .ok (sofar ++ fs.map fun f => (.text f.name, g f)) := by
    induction fs generalizing sofar with
    | nil => rw [List.map_nil, List.append_nil, named]
    | cons f fs ih =>
      obtain ⟨hf, hfs⟩ := List.forall_mem_cons.mp hfs
      obtain ⟨hnew, hfresh⟩ := List.forall_mem_cons.mp hfresh
      rw [List.map_cons, List.nodup_cons] at hnodup
      simp only [List.map_cons, named, fieldName?_name hk hf]
      rw [Json.put_fresh hnew, ih _ hfs hnodup.2, List.append_assoc]
      · rfl
      · intro f' hf' a ha
        rcases List.mem_append.mp ha with ha | ha
        · exact hfresh f' hf' a ha
        · obtain rfl := List.mem_singleton.mp ha
          have hne : f.name ≠ f'.name := fun heq =>
            hnodup.1 (heq ▸ List.mem_map_of_mem hf')
          exact decide_eq_false hne
  exact hnamed k.fields [] (fun _ => id) (Kind.fieldNames_nodup k hk)
    fun _ _ _ h => absurd h List.not_mem_nil

theorem get?_recordOf {f : Field} (hf : f ∈ k.fields) :
    (recordOf k g).get? (.text f.name) = some (g f) := by
  refine (Mapping.get?_eq_some_iff fun v w hv hw => ?_).mpr (List.mem_map.mpr ⟨f, hf, rfl⟩)
  obtain ⟨f₁, hf₁, heq₁⟩ := List.mem_map.mp hv
  obtain ⟨f₂, hf₂, heq₂⟩ := List.mem_map.mp hw
  simp only [Prod.mk.injEq, Value.text.injEq] at heq₁ heq₂
  have hsame := Kind.eq_of_name hk hf₁ hf₂ (heq₁.1.trans heq₂.1.symm)
  rw [← heq₁.2, ← heq₂.2, hsame]

theorem part_recordOf {f : Field} (hf : f ∈ k.fields) (check : Value → Record.Checked Value) :
    Record.part (recordOf k g) f.name f.default check = (check (g f)).under f.name := by
  simp only [Record.part, get?_recordOf hk g hf]

theorem checkFields_recordOf (hback : ∀ f ∈ k.fields, Record.ComesBack f.type (g f)) :
    Record.checkFields (recordOf k fun f => Record.formOf (g f)) k.fields =
      .ok (k.fields.map fun f => (f.name, g f)) := by
  refine Record.checkFields_of_parts fun f hf => ?_
  obtain ⟨x, hx, hcheck⟩ := hback f hf
  have hform : Record.formOf (g f) = x :=
    Except.ok.inj ((Record.plain_formOf ⟨x, hx⟩).symm.trans hx)
  rw [part_recordOf hk _ hf, Record.under_ok, hform]
  exact hcheck

theorem haveDocuments_recordOf (hg : ∀ f ∈ k.fields, (g f).isDocument = true) :
    Value.haveDocuments (recordOf k g) = true := by
  have hnamed := named_documents (named_recordOf hk g) ⟨rfl, by simp⟩
    (List.forall_mem_map.mpr hg)
  exact hnamed.1

omit hk in
theorem fits_recordOf {d : Json.Dialect} {depth : Nat} (hd : d.allows depth = true)
    (hg : ∀ f ∈ k.fields, (g f).fits d (depth + 1) = true) :
    (Value.dict (recordOf k g)).fits d depth = true := by
  rw [Value.fits, hd, Bool.true_and, Value.fitEntries_iff]
  exact List.forall_mem_map.mpr fun f hf => ⟨rfl, hg f hf⟩

theorem fits_formOf {f : Field} (hf : f ∈ k.fields) {v : Value} (hv : f.type.Admits v)
    (hplain : ∃ x, Record.plain v = .ok x) :
    (Record.formOf v).isDocument = true ∧ (Record.formOf v).fits .record 1 = true := by
  have hheight : ∀ k ∈ Kind.registered, ∀ f ∈ k.fields, f.type.height ≤ 2 := by decide
  have hlow := hheight k hk f hf
  obtain ⟨hdocument, hfits⟩ := Record.plain_isDocument hv (Record.plain_formOf hplain)
  exact ⟨hdocument, hfits .record 1 fun n hn => Json.Dialect.allows_record (by omega)⟩

theorem throughDocument_recordOf (hg : ∀ f ∈ k.fields, f.type.Admits (g f)) {m : Mapping} :
    throughDocument k (recordOf k g) = .ok m ↔
      (∀ f ∈ k.fields, ∃ x, Record.plain (g f) = .ok x) ∧
        m = recordOf k fun f => Record.formOf (g f) := by
  have hentries {m : Mapping} : Record.plainEntries (recordOf k g) = .ok m ↔
      (∀ f ∈ k.fields, ∃ x, Record.plain (g f) = .ok x) ∧
        m = recordOf k fun f => Record.formOf (g f) := by
    rw [Record.plainEntries_ok, recordOf, List.forall_mem_map, List.map_map]
    rfl
  by_cases hplain : ∀ f ∈ k.fields, ∃ x, Record.plain (g f) = .ok x
  · have hforms : ∀ f ∈ k.fields, (Record.formOf (g f)).isDocument = true ∧
        (Record.formOf (g f)).fits .record 1 = true := fun f hf =>
      fits_formOf hk hf (hg f hf) (hplain f hf)
    have hdocuments := haveDocuments_recordOf hk (fun f => Record.formOf (g f))
      fun f hf => (hforms f hf).1
    have hfits : (Value.dict (recordOf k fun f => Record.formOf (g f))).fits .record 0 = true :=
      fits_recordOf _ rfl fun f hf => (hforms f hf).2
    -- both records are written as the same document
    have hsame : throughDocument k (recordOf k g) =
        throughDocument k (recordOf k fun f => Record.formOf (g f)) := by
      rw [throughDocument, throughDocument, hentries.mpr ⟨hplain, rfl⟩,
        Record.plainEntries_documents _ hdocuments]
    rw [hsame, throughDocument_ok hdocuments]
    exact ⟨fun h => ⟨hplain, h.2⟩, fun h => ⟨hfits, h.2⟩⟩
  · refine iff_of_false (fun h => ?_) fun h => hplain h.1
    obtain ⟨_, hentry, -⟩ := bind_ok.mp h
    exact hplain (hentries.mp (mapError_ok.mp hentry)).1

theorem ofEntries_recordOf (hg : ∀ f ∈ k.fields, f.type.Admits (g f)) {e : Event} :
    ofEntries k (recordOf k g) = .ok e ↔ (∀ f ∈ k.fields, ∃ x, Record.plain (g f) = .ok x) ∧
      ∃ attributes, Record.checkFields (recordOf k fun f => Record.formOf (g f)) k.fields =
        .ok attributes ∧ make k attributes = .ok e := by
  unfold ofEntries
  rw [bind_ok]
  simp only [named_recordOf hk, Except.ok.injEq, exists_eq_left', bind_ok,
    throughDocument_recordOf hk g hg]
  constructor
  · rintro ⟨_, ⟨hplain, rfl⟩, h⟩
    split at h
    · cases h
    · rename_i attributes hchecked
      exact ⟨hplain, attributes, hchecked, mapError_ok.mp h⟩
  · rintro ⟨hplain, attributes, hchecked, hmake⟩
    refine ⟨_, ⟨hplain, rfl⟩, ?_⟩
    rw [hchecked]
    exact mapError_ok.mpr hmake

end RecordOf

/-! ## Telling an event again -/

/-- The record with the kind of an event and with each attribute as the event has it. -/
def retold (e : Event) : Mapping :=
  (.text "kind", .text e.kind.name) :: e.attributes.map fun (name, v) => (.text name, v)

theorem find?_kindName : ∀ k ∈ Kind.registered, Kind.find? k.name = some k := by decide

theorem ofRecord_retold {e : Event} (hk : e.kind ∈ Kind.registered) :
    ofRecord (.dict e.retold) = ofEntries e.kind (recordOf e.kind fun f => e.get f.name) := by
  have hrecord : (e.attributes.map fun (name, v) => (Value.text name, v)) =
      recordOf e.kind fun f => e.get f.name := by
    conv_lhs => rw [attributes_eq hk]
    rw [recordOf, List.map_map]
    rfl
  have hkind : (e.retold).get? (.text "kind") = some (.text e.kind.name) := by
    rw [retold, Mapping.get?_cons]
    rfl
  have hfind : findKind (.text e.kind.name) = .ok e.kind := by
    simp only [findKind, unhashable?, find?_kindName _ hk]
  have herase : (e.retold).erase (.text "kind") = recordOf e.kind fun f => e.get f.name := by
    have hkept : ∀ a ∈ recordOf e.kind fun f => e.get f.name,
        (!Mapping.sameKey a.1 (.text "kind")) = true := by
      refine List.forall_mem_map.mpr fun f hf => ?_
      have hne : f.name ≠ "kind" := fun heq => by
        have hname := fieldName?_name hk hf
        rw [heq, fieldName?_kind hk] at hname
        cases hname
      rw [Bool.not_eq_true']
      exact decide_eq_false hne
    rw [Mapping.erase, retold, List.filter_cons_of_neg (by simp [Mapping.sameKey]), hrecord,
      List.filter_eq_self.mpr hkept]
  simp only [ofRecord, hkind, hfind, herase, bind, Except.bind]

theorem comesBack_of_settle {f : Field} {v x w : Value} (hx : Record.plain v = .ok x)
    (hfits : x.fits .record 1 = true) (hcheck : Record.check f.type x = .ok w) (hsettle : settle f w = .ok v) :
    Record.ComesBack f.type v := by
  rcases settled_or_none (Record.check_admits hfits hcheck) with hsettled | ⟨rfl, t, ht⟩
  · cases hsettled.symm.trans hsettle
    exact ⟨x, hx, hcheck⟩
  · -- nothing would settle to a default, but just nothing is written as nothing
    obtain rfl := Record.eq_none_of_check hfits hcheck
    obtain rfl := Record.plain_eq_none hx
    exact ⟨.none, rfl, hcheck⟩

/-- An event is loaded from its own attributes just where each comes back from its form. -/
theorem ofRecord_retold_comesBack {e : Event} (h : e.Loaded) :
    ofRecord (.dict e.retold) = .ok e ↔
      ∀ f ∈ e.kind.fields, Record.ComesBack f.type (e.get f.name) := by
  have hk := h.registered
  have hnodup := Kind.fieldNames_nodup _ hk
  rw [ofRecord_retold hk, ofEntries_recordOf hk _ h.admits]
  constructor
  · rintro ⟨hplain, attributes, hchecked, hmake⟩ f hf
    obtain ⟨w, hlookup, hpart⟩ := Record.lookup_checkFields hchecked hnodup hf
    obtain ⟨w', hsettle, hlookup'⟩ := lookup_settleAll (make_ok hmake).2 hnodup hf
    rw [given, hlookup, Option.some_or, Option.getD_some] at hsettle
    rw [part_recordOf hk _ hf, Record.under_ok] at hpart
    have hget : e.get f.name = w' := by rw [get, hlookup', Option.getD_some]
    exact comesBack_of_settle (Record.plain_formOf (hplain f hf))
      (fits_formOf hk hf (h.admits f hf) (hplain f hf)).2 hpart (hget ▸ hsettle)
  · intro hback
    have hplain : ∀ f ∈ e.kind.fields, ∃ x, Record.plain (e.get f.name) = .ok x :=
      fun f hf => (hback f hf).imp fun _ hx => hx.1
    refine ⟨hplain, _, checkFields_recordOf hk _ hback, ?_⟩
    rw [← attributes_eq hk]
    exact make_attributes h

/-! ## Events that a document gave -/

theorem isReadable_default : ∀ k ∈ Kind.registered, ∀ f ∈ k.fields,
    f.type.isReadable (f.default.getD .none) = true := by decide

theorem isReadable_of_settle {k : Kind} (hk : k ∈ Kind.registered) {f : Field} (hf : f ∈ k.fields)
    {v w : Value} (hv : f.type.Admits v) (hread : f.type.isReadable v = true)
    (h : settle f v = .ok w) : f.type.isReadable w = true := by
  rcases settled_or_none hv with hsettled | ⟨rfl, t, ht⟩
  · cases hsettled.symm.trans h
    exact hread
  · unfold settle at h
    rw [ht] at h
    cases h
    exact ht ▸ isReadable_default k hk f hf

section Records

variable {entries : Mapping} {e : Event} (h : ofRecord (.dict entries) = .ok e)

include h

/-- Whatever a record is made of, its fields are checked against what a document holds. -/
theorem checked_of_ofRecord : ∃ m attributes,
    (Value.dict m).isDocument = true ∧ (Value.dict m).fits .record 0 = true ∧
      Record.checkFields m e.kind.fields = .ok attributes ∧ make e.kind attributes = .ok e := by
  obtain ⟨kind, k, -, -, -, hentries⟩ := ofRecord_ok.mp h
  obtain ⟨named, -, hrest⟩ := bind_ok.mp hentries
  obtain ⟨m, hthrough, hmade⟩ := bind_ok.mp hrest
  split at hmade
  · cases hmade
  · rename_i attributes hchecked
    have hmake := mapError_ok.mp hmade
    obtain ⟨rfl, -⟩ := make_ok hmake
    obtain ⟨hdocument, hfits⟩ := read_of_throughDocument hthrough
    exact ⟨m, attributes, hdocument, hfits, hchecked, hmake⟩

theorem isReadable_of_ofRecord :
    ∀ f ∈ e.kind.fields, f.type.isReadable (e.get f.name) = true := by
  intro f hf
  have hk := (loaded_of_ofRecord h).registered
  have hnodup := Kind.fieldNames_nodup _ hk
  obtain ⟨m, attributes, hdocument, hfits, hchecked, hmake⟩ := checked_of_ofRecord h
  obtain ⟨v, hlookup, hpart⟩ := Record.lookup_checkFields hchecked hnodup hf
  obtain ⟨w, hsettle, hlookup'⟩ := lookup_settleAll (make_ok hmake).2 hnodup hf
  rw [given, hlookup, Option.some_or, Option.getD_some] at hsettle
  have hget : e.get f.name = w := by rw [get, hlookup', Option.getD_some]
  rw [hget]
  rcases Record.part_ok hpart with ⟨x, hx, hcheck⟩ | hdefault
  · exact isReadable_of_settle hk hf (Record.check_admits (Value.fits_of_get? hfits hx) hcheck)
      (Record.check_isReadable (Value.isDocument_of_get? hdocument hx) hcheck) hsettle
  · have hread : f.type.isReadable v = true := by
      have hread := isReadable_default _ hk f hf
      rwa [hdefault, Option.getD_some] at hread
    exact isReadable_of_settle hk hf (Kind.default_admits hk hf hdefault) hread hsettle

/-- An event that a record gave is given again by the record of its own attributes, unless an
attribute has no form in a document: bytes that are no text, a country code that is not two bytes, or
a time whose offset is no whole number of minutes. -/
theorem ofRecord_retold_iff :
    ofRecord (.dict e.retold) = .ok e ↔
      ∀ f ∈ e.kind.fields, f.type.keeps (e.get f.name) = true := by
  have hloaded := loaded_of_ofRecord h
  have hread := isReadable_of_ofRecord h
  rw [ofRecord_retold_comesBack hloaded]
  exact forall₂_congr fun f hf => Record.comesBack_iff (hloaded.admits f hf) (hread f hf)

end Records

def farScan : Mapping :=
  [(.text "kind", .text "PortScan"), (.text "time", .text "2024-01-02T03:04:05.25+09:00"),
    (.text "sensor", .text "s"), (.text "proto", .int 6), (.text "confidence", .int 1),
    (.text "category", .text "DISCOVERY"),
    (.text "triage_scores",
      .list [Mapping.record [("policy_id", .int 1), ("score", .int 2)]]),
    (.text "orig_addr", .text "fe80::1%eth0"), (.text "orig_country_code", .text "KR"),
    (.text "resp_addr", .text "10.0.0.1"), (.text "resp_ports", .list [.int 22, .int 80]),
    (.text "start_time", .int 0), (.text "end_time", .text "2024-01-02")]

theorem retold_farScan :
    (Value.dict farScan).isDocument = true ∧
      ∃ e, ofRecord (.dict farScan) = .ok e ∧ ofRecord (.dict e.retold) = .ok e := by
  have hdocument : (Value.dict farScan).isDocument = true := by decide
  have hkept : (ofRecord (.dict farScan)).toOption.any
      (fun e => e.kind.fields.all fun f => f.type.keeps (e.get f.name)) = true := by decide +kernel
  obtain ⟨e, he, hkeeps⟩ := exists_of_any hkept
  exact ⟨hdocument, e, he, (ofRecord_retold_iff he).mpr (List.all_eq_true.mp hkeeps)⟩

def bootRequest (hardware : List Nat) : Mapping :=
  [(.text "kind", .text "BlocklistBootp"), (.text "time", .int 0), (.text "sensor", .text "s"),
    (.text "proto", .int 17), (.text "confidence", .int 1), (.text "orig_addr", .text "10.0.0.1"),
    (.text "resp_addr", .text "10.0.0.2"), (.text "start_time", .int 0),
    (.text "chaddr", .list (hardware.map fun n => .int n))]

/-- A hardware address is no text, and so the event that holds it is refused. -/
theorem retold_bootRequest :
    (Value.dict (bootRequest [0, 255])).isDocument = true ∧
      ∃ e cause, ofRecord (.dict (bootRequest [0, 255])) = .ok e ∧
        ofRecord (.dict e.retold) = .error (.notText .blocklistBootp cause) := by
  have hrefused : (ofRecord (.dict (bootRequest [0, 255]))).toOption.any (fun e =>
      ofRecord (.dict e.retold) matches .error (.notText .blocklistBootp _)) = true := by
    decide +kernel
  obtain ⟨e, he, hretold⟩ := exists_of_any hrefused
  refine ⟨by decide, e, ?_⟩
  split at hretold
  · rename_i cause heq
    exact ⟨cause, he, heq⟩
  · cases hretold

end Event

end Detection
