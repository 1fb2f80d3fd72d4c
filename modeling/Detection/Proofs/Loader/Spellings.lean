import Detection.Proofs.Country.ReadBack
import Detection.Proofs.Loader.Direct
import Detection.Proofs.Loader.Retold

/-! # Records that spell a value in one way or another

Text and a list of its bytes are two spellings of one value. A record may have either in the same
place: it loads or is refused as before, and the event is shown with the same pairs.
-/

namespace Detection

open FieldType (Admits)

/-! ## Values that are shown alike -/

/-- Values that a field of this type may hold, with the same text for both. -/
inductive FieldType.Alike : FieldType → Value → Value → Prop
  | same (t : FieldType) (v : Value) : Alike t v v
  | country {v w : Value} (h : Country.decode v = Country.decode w) : Alike .country v w
  | countries {vs ws : List Value} (h : Country.decodeAll vs = Country.decodeAll ws) :
    Alike (.sequence .country) (.tuple vs) (.tuple ws)

namespace FieldType.Alike

variable {t : FieldType} {v w : Value}

theorem symm (h : t.Alike v w) : t.Alike w v := by
  cases h with
  | same => exact .same t v
  | country h => exact .country h.symm
  | countries h => exact .countries h.symm

theorem shownText_eq {f : Field} (h : f.type.Alike v w) :
    Event.shownText f v = Event.shownText f w := by
  unfold Event.shownText
  generalize f.type = t at h
  cases h with
  | same => rfl
  | country h => rw [h]
  | countries h =>
    show Except.ok _ = Except.ok _
    rw [h]

theorem length_items (h : FieldType.Alike (.sequence t) v w) :
    (v.items?.getD []).length = (w.items?.getD []).length := by
  cases h with
  | same => rfl
  | countries h =>
    have hlength := congrArg List.length h
    simpa [Country.decodeAll, Value.items?] using hlength

theorem settle {f : Field} {x y : Value} (h : f.type.Alike v w) (hv : f.type.Admits v)
    (hw : f.type.Admits w) (hx : Event.settle f v = .ok x) (hy : Event.settle f w = .ok y) :
    f.type.Alike x y := by
  by_cases hsame : v = w
  · rw [hsame, hy] at hx
    cases hx
    exact .same _ _
  · have hmust : ∀ u, f.type ≠ .optional u := by
      intro u hu
      rw [hu] at h
      cases h
      exact hsame rfl
    have hself {v : Value} (hv : f.type.Admits v) : Event.Settled f v :=
      (Event.settled_or_none hv).resolve_right fun hnone => hmust _ hnone.2.choose_spec
    obtain rfl : x = v := Except.ok.inj (hx.symm.trans (hself hv))
    obtain rfl : y = w := Except.ok.inj (hy.symm.trans (hself hw))
    exact h

end FieldType.Alike

/-! ## Values that take the place of others -/

/-- A value that a record may give, at this depth, where another stands for a field of this type. -/
structure FieldType.Replaces (t : FieldType) (depth : Nat) (w v : Value) : Prop where
  document : v.isDocument = true → w.isDocument = true
  fits : v.fits .record depth = true → w.fits .record depth = true
  check : ∀ x, Record.check t v = .ok x → ∃ y, Record.check t w = .ok y ∧ t.Alike x y

namespace FieldType.Replaces

theorem among {depth : Nat} {v w : Value} (h : FieldType.Replaces .country (depth + 1) w v)
    (xs ys : List Value) :
    FieldType.Replaces (.sequence .country) depth (.list (xs ++ w :: ys))
      (.list (xs ++ v :: ys)) := by
  refine ⟨fun hdocument => ?_, fun hfits => ?_, fun x hx => ?_⟩
  · rw [Value.isDocument, Value.areDocuments_iff, List.forall_mem_append,
      List.forall_mem_cons] at hdocument ⊢
    exact ⟨hdocument.1, h.document hdocument.2.1, hdocument.2.2⟩
  · simp only [Value.fits, Value.fitAll_eq_all, List.all_append, List.all_cons,
      Bool.and_eq_true] at hfits ⊢
    exact ⟨hfits.1, hfits.2.1, h.fits hfits.2.2.1, hfits.2.2.2⟩
  · obtain ⟨items, vs, heq, rfl, hitems⟩ := Record.checkItems_ok hx
    cases heq
    rw [List.map_append, List.map_cons] at hitems
    obtain ⟨as, rest, rfl, has, hrest⟩ := List.map_eq_append_iff.mp hitems.symm
    obtain ⟨b, bs, rfl, hb, hbs⟩ := List.map_eq_cons_iff.mp hrest
    obtain ⟨c, hc, halike⟩ := h.check b hb.symm
    refine ⟨.tuple (as ++ c :: bs), map_ok.mpr ⟨_, Record.allFrom_ok.mpr ?_, rfl⟩, .countries ?_⟩
    · rw [List.map_append, List.map_append, List.map_cons, List.map_cons, has, hbs, hc]
    · have hcode : Country.decode b = Country.decode c := by
        cases halike with
        | same => rfl
        | country h => exact h
      simp only [Country.decodeAll, List.map_append, List.map_cons, hcode]

theorem text_bytes {t : FieldType} {depth : Nat} (hdepth : depth < 200) {s : String} {x y : Value}
    (hx : Record.check t (.text s) = .ok x)
    (hy : Record.check t (.ofBytes (Utf8.encode s)) = .ok y) (halike : t.Alike x y) :
    t.Replaces depth (.ofBytes (Utf8.encode s)) (.text s) ∧
      t.Replaces depth (.text s) (.ofBytes (Utf8.encode s)) := by
  have hhere := Json.Dialect.allows_record (Nat.le_of_lt hdepth)
  have hbelow := Json.Dialect.allows_record (Nat.succ_le_of_lt hdepth)
  constructor
  · refine ⟨fun _ => Value.isDocument_ofBytes _, fun _ => Value.fits_ofBytes hhere hbelow _,
      fun z hz => ⟨y, hy, ?_⟩⟩
    obtain rfl := Except.ok.inj (hx.symm.trans hz)
    exact halike
  · refine ⟨fun _ => rfl, fun _ => (Value.fits_text _ _ s).trans hhere, fun z hz => ⟨x, hx, ?_⟩⟩
    obtain rfl := Except.ok.inj (hy.symm.trans hz)
    exact halike.symm

theorem code {depth : Nat} (hdepth : depth < 200) (s : String) :
    FieldType.Replaces .country depth (.ofBytes (Utf8.encode s)) (.text s) ∧
      FieldType.Replaces .country depth (.text s) (.ofBytes (Utf8.encode s)) :=
  text_bytes hdepth (x := .bytes (Country.encode (.text s))) (y := .bytes (Utf8.encode s)) rfl
    (Record.wired_ok.mpr (Wire.byteList_ofBytes _)) (.country (Country.decode_encode s))

theorem payload {depth : Nat} (hdepth : depth < 200) (s : String) :
    FieldType.Replaces .payload depth (.ofBytes (Utf8.encode s)) (.text s) ∧
      FieldType.Replaces .payload depth (.text s) (.ofBytes (Utf8.encode s)) :=
  text_bytes hdepth (x := .bytes (Utf8.encode s)) (y := .bytes (Utf8.encode s)) rfl
    (Record.wired_ok.mpr (Wire.byteList_ofBytes _)) (.same _ _)

end FieldType.Replaces

/-! ## Records with one value left open -/

namespace Event

theorem haveDocuments_replaced {before after : Mapping} {key v w : Value}
    (h : w.isDocument = v.isDocument) :
    Value.haveDocuments (before ++ (key, w) :: after) =
      Value.haveDocuments (before ++ (key, v) :: after) := by
  induction before with
  | nil => simp only [List.nil_append, Value.haveDocuments, h]
  | cons a before ih =>
    obtain ⟨key', x⟩ := a
    simp only [List.cons_append, Value.haveDocuments, ih, List.all_append, List.all_cons]

theorem get?_kind_replaced {k : Kind} (hk : k ∈ Kind.registered) {before after : Mapping}
    {key : Value} {name : String} (hkey : fieldName? k key = some name) (v w : Value) :
    Mapping.get? (before ++ (key, w) :: after) (.text "kind") =
      Mapping.get? (before ++ (key, v) :: after) (.text "kind") := by
  have hother : Mapping.sameKey key (.text "kind") = false := by
    rw [Bool.eq_false_iff, ne_eq, Mapping.sameKey_text]
    rintro rfl
    rw [fieldName?_kind hk] at hkey
    cases hkey
  simp [Mapping.get?, List.find?_append, hother]

/-- A record of this kind but for one value, which is for this field. -/
structure OpenRecord (k : Kind) (f : Field) where
  before : Mapping
  key : Value
  after : Mapping
  declared : f ∈ k.fields
  stands : fieldName? k key = some f.name
  documents : Value.haveDocuments (before ++ (key, .none) :: after) = true
  names : ∃ kind, Mapping.get? (before ++ (key, .none) :: after) (.text "kind") = some kind ∧
    findKind kind = .ok k

namespace OpenRecord

variable {k : Kind} {f : Field}

def fill (r : OpenRecord k f) (v : Value) : Mapping := r.before ++ (r.key, v) :: r.after

theorem exists_fill {entries : Mapping} {key v kind : Value}
    (hdocument : (Value.dict entries).isDocument = true)
    (hkind : entries.get? (.text "kind") = some kind) (hfind : findKind kind = .ok k)
    (hf : f ∈ k.fields) (hmem : (key, v) ∈ entries) (hkey : fieldName? k key = some f.name) :
    ∃ r : OpenRecord k f, r.fill v = entries := by
  obtain ⟨before, after, rfl⟩ := List.append_of_mem hmem
  have hv : Value.isDocument .none = v.isDocument := (Value.isDocument_of_mem hdocument hmem).symm
  refine ⟨⟨before, key, after, hf, hkey, ?_, kind, ?_, hfind⟩, rfl⟩
  · exact (haveDocuments_replaced hv).trans hdocument
  · exact (get?_kind_replaced (registered_of_findKind hfind) hkey _ _).trans hkind

theorem registered (r : OpenRecord k f) : k ∈ Kind.registered := by
  obtain ⟨kind, -, hfind⟩ := r.names
  exact registered_of_findKind hfind

variable (r : OpenRecord k f) {v w : Value} {e : Event}

theorem isDocument_fill (hv : v.isDocument = true) : (Value.dict (r.fill v)).isDocument = true :=
  (haveDocuments_replaced hv).trans r.documents

theorem get?_fill (v : Value) : ∃ kind, (r.fill v).get? (.text "kind") = some kind ∧
    findKind kind = .ok k := by
  obtain ⟨kind, hget, hfind⟩ := r.names
  exact ⟨kind, (get?_kind_replaced r.registered r.stands _ _).trans hget, hfind⟩

theorem exists_mem_fill {a : Value × Value} (h : a ∈ r.fill w) (v : Value) :
    ∃ b ∈ r.fill v, b.1 = a.1 := by
  have hkeys : (r.fill w).map Prod.fst = (r.fill v).map Prod.fst := by
    simp only [fill, List.map_append, List.map_cons]
  exact List.mem_map.mp (hkeys ▸ List.mem_map_of_mem h)

theorem supplied?_fill (hf : f.type ≠ .text) (hv : v.isDocument = true) :
    supplied? k (r.fill v) f.name = some v := by
  have hsender : ∀ k ∈ Kind.registered, ∀ f ∈ k.fields, f.name = "from_" → f.type = .text := by
    decide
  exact supplied?_own r.registered (r.isDocument_fill hv) r.stands
    fun hname => hf (hsender k r.registered f r.declared hname)

theorem supplied?_fill_of_ne {name : String} (hname : name ≠ f.name) :
    supplied? k (r.fill w) name = supplied? k (r.fill v) name := by
  refine supplied?_change fun hkey => hname ?_
  exact Option.some.inj (hkey.symm.trans r.stands)

theorem kind_of_ofRecord (hv : v.isDocument = true) (h : ofRecord (.dict (r.fill v)) = .ok e) :
    e.kind = k := by
  obtain ⟨-, ⟨kind, hkind, -, hfind⟩, -⟩ := entries_of_ofRecord (r.isDocument_fill hv) h
  obtain ⟨kind', hkind', hfind'⟩ := r.get?_fill v
  rw [hkind] at hkind'
  cases hkind'
  exact Except.ok.inj (hfind.symm.trans hfind')

end OpenRecord

theorem sideLengths_congr {get get' : String → Value} {shape : SideShape} {label : String}
    (h : ∀ f ∈ shape.fields label, ∀ t, f.type = .sequence t →
      itemCount get' f.name = itemCount get f.name) :
    sideLengths (itemCount get') shape label = sideLengths (itemCount get) shape label := by
  cases shape with
  | single => rfl
  | multiPort => rfl
  | group =>
    simp only [SideShape.fields, List.forall_mem_cons, Field.required,
      FieldType.sequence.injEq, forall_eq'] at h
    simp only [sideLengths, h.1, h.2.1, h.2.2.1]

/-! ## Events made of values that are alike -/

theorem exists_make_alike {k : Kind} (hk : k ∈ Kind.registered) {args args' : List (String × Value)}
    (hargs : ∀ f ∈ k.fields, ∃ v, args.lookup f.name = some v ∧ f.type.Admits v)
    (hargs' : ∀ f ∈ k.fields, ∃ w, args'.lookup f.name = some w ∧ f.type.Admits w)
    (halike : ∀ f ∈ k.fields, ∀ v w, args.lookup f.name = some v → args'.lookup f.name = some w →
      f.type.Alike v w) {e : Event} (h : make k args = .ok e) :
    ∃ e', make k args' = .ok e' ∧ e'.kind = e.kind ∧
      ∀ f ∈ k.fields, f.type.Alike (e.get f.name) (e'.get f.name) := by
  obtain ⟨e, rfl, hmake, hget⟩ := make_eq hk hargs
  rw [hmake] at h
  obtain ⟨_, hchecked, rfl⟩ := map_ok.mp h
  obtain ⟨e', hkind, hmake', hget'⟩ := make_eq hk hargs'
  have hgets : ∀ f ∈ e.kind.fields, f.type.Alike (e.get f.name) (e'.get f.name) := by
    intro f hf
    obtain ⟨v, hv, hadmits⟩ := hargs f hf
    obtain ⟨w, hw, hadmits'⟩ := hargs' f hf
    exact (halike f hf v w hv hw).settle hadmits hadmits' ((hget f hf).2.2 v hv)
      ((hget' f hf).2.2 w hw)
  obtain ⟨s, hs⟩ := Kind.exists_sides hk
  -- values that are alike are as long
  have hlengths {shape : SideShape} {label : String}
      (hside : ∀ f ∈ shape.fields label, f ∈ s.fields) :
      sideLengths (itemCount e'.get) shape label = sideLengths (itemCount e.get) shape label := by
    refine sideLengths_congr fun f hf t ht => ?_
    have hitems := hgets f (Kind.sideFields_subset hs (hside f hf))
    rw [ht] at hitems
    exact hitems.length_items.symm
  have hsides : checkSides e.kind e'.get = checkSides e.kind e.get := by
    rw [checkSides_eq hs fun f hf => (hget' f hf).1, checkSides_eq hs fun f hf => (hget f hf).1,
      hlengths fun f hf => List.mem_append_left _ hf,
      hlengths fun f hf => List.mem_append_right _ hf]
  refine ⟨e', ?_, hkind, hgets⟩
  rw [hmake', hsides, hchecked]
  rfl

theorem pairs_of_alike {e e' : Event} (h : e.Loaded) (h' : e'.Loaded) (hkind : e'.kind = e.kind)
    (halike : ∀ f ∈ e.kind.fields, f.type.Alike (e.get f.name) (e'.get f.name)) :
    e'.pairs = e.pairs := by
  obtain ⟨text, htext, hpairs⟩ := exists_texts h
  rw [hpairs, ← hkind]
  refine pairs_of_loaded h' fun f hf => ?_
  rw [hkind] at hf
  rw [← (halike f (Kind.mem_fields_iff.mpr (.inr hf))).shownText_eq]
  exact htext f hf

/-! ## Records with one value replaced -/

section Replaced

variable {v w : Value} {k : Kind} {f : Field} {m m' : Mapping}
  (hk : k ∈ Kind.registered) (hf : f ∈ k.fields) (hw : f.type.Replaces 1 w v)
  (hown : m.get? (.text f.name) = some v) (hown' : m'.get? (.text f.name) = some w)
  (hother : ∀ name, name ≠ f.name → m'.get? (.text name) = m.get? (.text name))

include hw hown hown' hother

theorem fits_replaced (hdocuments' : Value.haveDocuments m' = true)
    (htexts' : ∀ a ∈ m', a.1.isText = true) (h : (Value.dict m).fits .record 0 = true) :
    (Value.dict m').fits .record 0 = true := by
  refine fits_of_forall hdocuments' htexts' (allows_of_fits h) fun name x hx => ?_
  by_cases hname : name = f.name
  · rw [hname, hown'] at hx
    cases hx
    exact hw.fits (fits_of_mem h (Mapping.mem_of_get? hown))
  · rw [hother name hname] at hx
    exact fits_of_mem h (Mapping.mem_of_get? hx)

include hk hf

theorem part_replaced {g : Field} (hg : g ∈ k.fields) {x : Value}
    (hx : Record.part m g.name g.default (Record.check g.type) = .ok x) :
    ∃ y, Record.part m' g.name g.default (Record.check g.type) = .ok y ∧ g.type.Alike x y := by
  unfold Record.part at hx ⊢
  by_cases hname : g.name = f.name
  · obtain rfl := Kind.eq_of_name hk hg hf hname
    rw [hown] at hx
    rw [hown']
    obtain ⟨y, hy, halike⟩ := hw.check x (Record.under_ok.mp hx)
    exact ⟨y, Record.under_ok.mpr hy, halike⟩
  · rw [hother g.name hname]
    exact ⟨x, hx, .same _ _⟩

theorem exists_checkFields_replaced {attributes : List (String × Value)}
    (h : Record.checkFields m k.fields = .ok attributes) :
    ∃ attributes', Record.checkFields m' k.fields = .ok attributes' ∧
      ∀ g ∈ k.fields, ∀ x y, attributes.lookup g.name = some x →
        attributes'.lookup g.name = some y → g.type.Alike x y := by
  have hnodup := Kind.fieldNames_nodup k hk
  -- each field passes as before; what it leaves is put together below
  have hparts : ∀ g ∈ k.fields, ∃ x y, attributes.lookup g.name = some x ∧
      Record.part m' g.name g.default (Record.check g.type) = .ok y ∧ g.type.Alike x y := by
    intro g hg
    obtain ⟨x, hlookup, hx⟩ := Record.lookup_checkFields h hnodup hg
    obtain ⟨y, hy, halike⟩ := part_replaced hk hf hw hown hown' hother hg hx
    exact ⟨x, y, hlookup, hy, halike⟩
  let result (g : Field) : Value :=
    (Record.part m' g.name g.default (Record.check g.type)).toOption.getD .none
  have hresult : ∀ g ∈ k.fields,
      Record.part m' g.name g.default (Record.check g.type) = .ok (result g) := by
    intro g hg
    obtain ⟨x, y, -, hy, -⟩ := hparts g hg
    simp only [result, hy]
    rfl
  have hchecked := Record.checkFields_of_parts hresult
  refine ⟨_, hchecked, fun g hg x y hx hy => ?_⟩
  obtain ⟨x', y', hx', hy', halike⟩ := hparts g hg
  obtain ⟨z, hz, hpart⟩ := Record.lookup_checkFields hchecked hnodup hg
  rw [hx'] at hx
  rw [hz] at hy
  rw [hy'] at hpart
  cases hx
  cases hy
  cases hpart
  exact halike

end Replaced

/-! ## Records filled in two ways -/

section Filled

variable {k : Kind} {f : Field} (r : OpenRecord k f) {v w : Value} {e : Event}
  (hf : f.type ≠ .text) (hv : v.isDocument = true) (hw : f.type.Replaces 1 w v)

include hf hv hw

/-- With one value in the place of another the record loads as before, to an event that is alike. -/
theorem exists_ofRecord_fill (h : ofRecord (.dict (r.fill v)) = .ok e) :
    ∃ e', ofRecord (.dict (r.fill w)) = .ok e' ∧ e'.kind = e.kind ∧
      ∀ g ∈ e.kind.fields, g.type.Alike (e.get g.name) (e'.get g.name) := by
  have hk := r.registered
  have hdocument := r.isDocument_fill hv
  have hdocument' := r.isDocument_fill (hw.document hv)
  obtain rfl := r.kind_of_ofRecord hv h
  obtain ⟨-, -, hdocuments, hentries⟩ := entries_of_ofRecord hdocument h
  obtain ⟨m, attributes, hnamed, hfits, hchecked, hmake⟩ := (ofEntries_ok hdocuments).mp hentries
  have hkeys' : ∀ a ∈ r.fill w, a.1 ≠ .text "kind" → ∃ name, fieldName? e.kind a.1 = some name := by
    intro a ha hakind
    obtain ⟨b, hb, hkey⟩ := r.exists_mem_fill ha v
    rw [← hkey] at hakind ⊢
    obtain ⟨g, -, hg⟩ := field_of_ofRecord hdocument h hb hakind
    exact ⟨g.name, hg⟩
  obtain ⟨m', hnamed'⟩ := exists_named_erase hkeys'
  have hdocuments' : ∀ a ∈ (r.fill w).erase (.text "kind"), a.2.isDocument = true := fun a ha =>
    Value.isDocument_of_mem hdocument' (mem_erase_kind.mp ha).1
  obtain ⟨hm', htexts'⟩ := named_documents hnamed' ⟨rfl, by simp⟩ hdocuments'
  -- only under the name of the field does anything else stand now
  have hown := (get?_named_erase hk hnamed f.name).trans (r.supplied?_fill hf hv)
  have hown' := (get?_named_erase hk hnamed' f.name).trans (r.supplied?_fill hf (hw.document hv))
  have hother (name : String) (hname : name ≠ f.name) :
      m'.get? (.text name) = m.get? (.text name) := by
    rw [get?_named_erase hk hnamed', get?_named_erase hk hnamed]
    exact r.supplied?_fill_of_ne hname
  have hfits' := fits_replaced hw hown hown' hother hm' htexts' hfits
  obtain ⟨attributes', hchecked', halike⟩ :=
    exists_checkFields_replaced hk r.declared hw hown hown' hother hchecked
  obtain ⟨e', hmake', hkind', hgets⟩ := exists_make_alike hk
    (admits_of_checkFields hk hfits hchecked) (admits_of_checkFields hk hfits' hchecked') halike hmake
  refine ⟨e', ?_, hkind', hgets⟩
  obtain ⟨kind, hkind, hfind⟩ := r.get?_fill w
  rw [ofRecord_of_findKind hkind hfind]
  exact (ofEntries_ok hdocuments').mpr ⟨m', attributes', hnamed', hfits', hchecked', hmake'⟩

end Filled

/-- The kind and the pairs of the event that a record loads to, if it loads. -/
def shownAs? (record : Value) : Option (Kind × Except RenderError (List Pair)) :=
  (ofRecord record).toOption.map fun e => (e.kind, e.pairs)

theorem shownAs?_fill {k : Kind} {f : Field} (r : OpenRecord k f) {v w : Value}
    (hf : f.type ≠ .text) (hv : v.isDocument = true) (hw : f.type.Replaces 1 w v)
    {shown : Kind × Except RenderError (List Pair)}
    (h : shownAs? (.dict (r.fill v)) = some shown) : shownAs? (.dict (r.fill w)) = some shown := by
  obtain ⟨e, he, rfl⟩ := Option.map_eq_some_iff.mp h
  have hloads := toOption_eq_some.mp he
  obtain ⟨e', h', hkind, halike⟩ := exists_ofRecord_fill r hf hv hw hloads
  have hpairs := pairs_of_alike (loaded_of_ofRecord hloads) (loaded_of_ofRecord h') hkind halike
  rw [shownAs?, h', ← hpairs, ← hkind]
  rfl

/-! ## Country codes in two spellings -/

/-- The text of a country code and the bytes of the text, for a field that holds a code or codes. -/
inductive CodeSpelled (s : String) : FieldType → Value → Value → Prop
  | alone : CodeSpelled s .country (.text s) (.ofBytes (Utf8.encode s))
  | among {xs ys : List Value} (h : ∀ x ∈ xs ++ ys, x.isDocument = true) :
    CodeSpelled s (.sequence .country) (.list (xs ++ .text s :: ys))
      (.list (xs ++ .ofBytes (Utf8.encode s) :: ys))

theorem CodeSpelled.replaces {s : String} {t : FieldType} {v w : Value} (h : CodeSpelled s t v w) :
    (t ≠ .text ∧ v.isDocument = true) ∧ t.Replaces 1 w v ∧ t.Replaces 1 v w := by
  cases h with
  | alone => exact ⟨⟨nofun, rfl⟩, FieldType.Replaces.code (by decide) s⟩
  | among h =>
    obtain ⟨hbytes, htext⟩ := FieldType.Replaces.code (show 2 < 200 by decide) s
    refine ⟨⟨nofun, Value.areDocuments_iff.mpr fun x hx => ?_⟩, hbytes.among _ _, htext.among _ _⟩
    rcases List.mem_append.mp hx with hx | hx
    · exact h x (List.mem_append_left _ hx)
    rcases List.mem_cons.mp hx with rfl | hx
    · rfl
    · exact h x (List.mem_append_right _ hx)

/-- Every value that a note can show is decoded. Encoding undoes decoding where the value is two
bytes of text, and gives the bytes of the unknown country where it is not. Decoding undoes encoding
where the text is of two bytes, and gives the unknown country where it is not. So what the encoder
gives is always read as a code. Whether a record gives a code as text or as the bytes of the text, it
shows the same. -/
theorem country_encode_decode (room : Option Nat) (raw : Value) :
    ((∃ code, Country.attempt room raw = .ok code) ↔ raw.literalExcess? room = none) ∧
      (∀ code, Country.attempt room raw = .ok code →
        (∀ bs, Country.IsCode raw bs → Country.encode (.text code) = bs) ∧
          ((∀ bs, ¬ Country.IsCode raw bs) → Country.encode (.text code) = [0x58, 0x58])) ∧
      (∀ s : String, Country.attempt room (.bytes (Country.encode (.text s))) =
        .ok (if (Utf8.encode s).length = 2 then s else "XX")) ∧
      (∀ code : Value, (∀ points, code ≠ .broken points) → (Country.encode code).length = 2 ∧
        ∃ s, Country.read (.bytes (Country.encode code)) = .ok s) ∧
      ∀ {k : Kind} {f : Field} (r : OpenRecord k f) {s : String} {v w : Value},
        CodeSpelled s f.type v w → shownAs? (.dict (r.fill v)) = shownAs? (.dict (r.fill w)) := by
  refine ⟨?_, fun code h => ?_, fun s => ?_, fun code _ => ?_, fun r s v w h => ?_⟩
  · simp only [Country.attempt_ok_iff, exists_and_left, exists_eq, and_true]
  · obtain rfl := Country.attempt_ok h
    exact ⟨fun bs => Country.encode_decode_of_isCode, Country.encode_decode_of_not⟩
  · rw [Country.attempt_of_shown rfl, Country.decode_encode, Country.decode_utf8]
    rfl
  · have hcode := Country.isCode_encode code
    obtain ⟨s, hread, -⟩ := Country.isCode_iff.mp hcode
    exact ⟨hcode.2.1, s, hread⟩
  · obtain ⟨⟨hf, hv⟩, hw, hv'⟩ := h.replaces
    apply Option.ext
    intro shown
    exact ⟨shownAs?_fill r hf hv hw, shownAs?_fill r hf (hw.document hv) hv'⟩

def codedScan : OpenRecord .portScan
    { name := "orig_country_code", type := .country, default := some .none } where
  before := [(.text "kind", .text "PortScan"), (.text "time", .int 0), (.text "sensor", .text "s"),
    (.text "proto", .int 6), (.text "confidence", .int 1), (.text "orig_addr", .text "10.0.0.1")]
  key := .text "orig_country_code"
  after := [(.text "resp_addr", .text "10.0.0.2"), (.text "start_time", .int 0),
    (.text "end_time", .int 0)]
  declared := List.mem_of_getElem? (show Kind.portScan.fields[8]? = _ from rfl)
  stands := rfl
  documents := by decide
  names := ⟨_, rfl, rfl⟩

theorem country_encode_decode_scan :
    Country.attempt (some Excess.usualRoom) (.bytes [0x4B, 0x52]) = .ok "KR" ∧
      Country.encode (.text "KR") = [0x4B, 0x52] ∧
      (shownAs? (.dict (codedScan.fill (.text "KR")))).isSome = true ∧
      shownAs? (.dict (codedScan.fill (.text "KR"))) =
        shownAs? (.dict (codedScan.fill (.ofBytes (Utf8.encode "KR")))) := by
  have hcode : Country.attempt (some Excess.usualRoom) (.bytes [0x4B, 0x52]) = .ok "KR" := rfl
  obtain ⟨-, hencode, -, -, hshown⟩ :=
    country_encode_decode (some Excess.usualRoom) (.bytes [0x4B, 0x52])
  exact ⟨hcode, (hencode "KR" hcode).1 _ ⟨.inl rfl, rfl, "KR", rfl⟩, by decide +kernel,
    hshown codedScan .alone⟩

theorem attempt_long {n : Int} (hn : Excess.isLong n = true) (room : Option Nat) :
    Country.attempt room (.int n) = .error .digits := by
  simp [Country.attempt, Country.read, Country.Fallback.excess?, Value.literalExcess?,
    Value.excess?, hn]

def scored : Nat → Value → Value
  | 0, v => v
  | n + 1, v => .score (.int 0) (scored n v)

/-- A number of too many digits is not decoded to the unknown country, and neither is a score of a
score and so on. -/
theorem unshown_codes :
    (∀ room, Country.attempt room (.int (10 ^ Excess.maxDigits)) = .error .digits) ∧
      Country.attempt (some Excess.usualRoom) (scored 315 (Value.nested 64 (.list []))) =
        .error (.calls " while getting the repr of an object") :=
  ⟨attempt_long Excess.isLong_ten_pow, by decide +kernel⟩

end Event

end Detection
