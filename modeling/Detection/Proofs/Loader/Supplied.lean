import Detection.Proofs.Loader.Outcome
import Detection.Proofs.Loader.Through

/-! # What loading keeps of a record

An attribute takes the value of the last key that stands for it, or its default where there is none.
One kind has an attribute with two keys; for every other, each value that is supplied is kept.
-/

namespace Detection.Event

/-! ## Values and the attributes they are supplied for -/

/-- The value of the last key that stands for the attribute of this name. -/
def supplied? (k : Kind) (entries : Mapping) (name : String) : Option Value :=
  (entries.reverse.find? fun a => fieldName? k a.1 == some name).map Prod.snd

/-- No two keys stand for one attribute. -/
def Apart (k : Kind) (entries : Mapping) : Prop :=
  ∀ a ∈ entries, ∀ b ∈ entries, ∀ name, fieldName? k a.1 = some name →
    fieldName? k b.1 = some name → a = b

/-- The attribute of the field holds what this value is converted to. -/
def Holds (e : Event) (f : Field) (v : Value) : Prop :=
  ∃ x, Record.check f.type v = .ok x ∧ settle f x = .ok (e.get f.name)

def HoldsDefault (e : Event) (f : Field) : Prop :=
  ∃ d, f.default = some d ∧ settle f d = .ok (e.get f.name)

theorem supplied?_cons (k : Kind) (a : Value × Value) (entries : Mapping) (name : String) :
    supplied? k (a :: entries) name = (supplied? k entries name).or
      (if fieldName? k a.1 = some name then some a.2 else none) := by
  unfold supplied?
  rw [List.reverse_cons, List.find?_append, Option.map_or]
  by_cases ha : fieldName? k a.1 = some name
  · simp [ha]
  · simp [ha]

theorem supplied?_last {k : Kind} {before after : Mapping} {key v : Value} {name : String}
    (hkey : fieldName? k key = some name) (hlast : ∀ a ∈ after, fieldName? k a.1 ≠ some name) :
    supplied? k (before ++ (key, v) :: after) name = some v := by
  have hafter : (after.reverse.find? fun a => fieldName? k a.1 == some name) = none := by
    rw [List.find?_eq_none]
    intro a ha
    simpa using hlast a (List.mem_reverse.mp ha)
  unfold supplied?
  rw [List.reverse_append, List.reverse_cons, List.append_assoc, List.find?_append, hafter,
    Option.none_or, List.singleton_append, List.find?_cons_of_pos (by simpa using hkey)]
  rfl

theorem mem_of_supplied? {k : Kind} {entries : Mapping} {name : String} {v : Value}
    (h : supplied? k entries name = some v) :
    ∃ key, (key, v) ∈ entries ∧ fieldName? k key = some name := by
  obtain ⟨a, ha, rfl⟩ := Option.map_eq_some_iff.mp h
  refine ⟨a.1, List.mem_reverse.mp (List.mem_of_find?_eq_some ha), ?_⟩
  simpa using List.find?_some (p := fun a : Value × Value => fieldName? k a.1 == some name) ha

theorem exists_supplied? {k : Kind} {entries : Mapping} {name : String} {a : Value × Value}
    (ha : a ∈ entries) (hname : fieldName? k a.1 = some name) :
    ∃ v, supplied? k entries name = some v := by
  rw [← Option.isSome_iff_exists, supplied?, Option.isSome_map, List.find?_isSome]
  exact ⟨a, List.mem_reverse.mpr ha, by simpa using hname⟩

theorem supplied?_eq_some_iff {k : Kind} {entries : Mapping} (h : Apart k entries) {name : String}
    {v : Value} :
    supplied? k entries name = some v ↔
      ∃ key, (key, v) ∈ entries ∧ fieldName? k key = some name := by
  refine ⟨mem_of_supplied?, ?_⟩
  rintro ⟨key, hmem, hname⟩
  -- some entry supplies the attribute, and there is just this one
  obtain ⟨w, hw⟩ := exists_supplied? hmem hname
  obtain ⟨key', hmem', hname'⟩ := mem_of_supplied? hw
  cases h _ hmem _ hmem' name hname hname'
  exact hw

theorem supplied?_perm {k : Kind} {entries entries' : Mapping} (h : Apart k entries)
    (hperm : entries'.Perm entries) (name : String) :
    supplied? k entries' name = supplied? k entries name := by
  have h' : Apart k entries' := fun a ha b hb =>
    h a (hperm.mem_iff.mp ha) b (hperm.mem_iff.mp hb)
  apply Option.ext
  intro v
  rw [supplied?_eq_some_iff h', supplied?_eq_some_iff h]
  simp only [hperm.mem_iff]

theorem supplied?_change {k : Kind} {before after : Mapping} {key v w : Value} {name : String}
    (hkey : fieldName? k key ≠ some name) :
    supplied? k (before ++ (key, v) :: after) name =
      supplied? k (before ++ (key, w) :: after) name := by
  unfold supplied?
  simp [List.find?_append, hkey]

/-! ## Entries under the names of their fields -/

section Named

variable {k : Kind} {sofar entries m : Mapping}

theorem exists_named (h : ∀ a ∈ entries, ∃ name, fieldName? k a.1 = some name)
    (sofar : Mapping) : ∃ m, named k sofar entries = .ok m := by
  induction entries generalizing sofar with
  | nil => exact ⟨sofar, rfl⟩
  | cons a rest ih =>
    obtain ⟨⟨name, hname⟩, hrest⟩ := List.forall_mem_cons.mp h
    simp only [named, hname]
    exact ih hrest _

theorem fieldName_of_named (h : named k sofar entries = .ok m) :
    ∀ a ∈ entries, ∃ name, fieldName? k a.1 = some name := by
  induction entries generalizing sofar with
  | nil => simp
  | cons a rest ih =>
    rw [named] at h
    split at h
    · rename_i name hname
      exact List.forall_mem_cons.mpr ⟨⟨name, hname⟩, ih h⟩
    · cases h

theorem get?_named (h : named k sofar entries = .ok m) (name : String) :
    m.get? (.text name) = (supplied? k entries name).or (sofar.get? (.text name)) := by
  induction entries generalizing sofar with
  | nil =>
    cases h
    rfl
  | cons a rest ih =>
    rw [named] at h
    split at h
    · rename_i other hother
      rw [ih h, supplied?_cons, Mapping.get?_put_text, hother, Option.or_assoc]
      by_cases heq : other = name
      · simp [heq]
      · simp [heq]
    · cases h

theorem named_documents (h : named k sofar entries = .ok m)
    (hsofar : Value.haveDocuments sofar = true ∧ ∀ a ∈ sofar, a.1.isText = true)
    (hentries : ∀ a ∈ entries, a.2.isDocument = true) :
    Value.haveDocuments m = true ∧ ∀ a ∈ m, a.1.isText = true := by
  induction entries generalizing sofar with
  | nil =>
    cases h
    exact hsofar
  | cons a rest ih =>
    obtain ⟨ha, hrest⟩ := List.forall_mem_cons.mp hentries
    rw [named] at h
    split at h
    · refine ih h ⟨Value.haveDocuments_put hsofar.1 rfl ha, fun b hb => ?_⟩ hrest
      rcases Mapping.key_of_mem_put hb with heq | ⟨b', hb', heq⟩
      · rw [heq]
        rfl
      · rw [← heq]
        exact hsofar.2 b' hb'
    · cases h

end Named

/-! ## Depth and text -/

section Fits

variable {m : Mapping} {d : Json.Dialect} {depth : Nat}

theorem allows_of_fits (h : (Value.dict m).fits d depth = true) : d.allows depth = true := by
  rw [Value.fits, Bool.and_eq_true] at h
  exact h.1

theorem fits_of_mem (h : (Value.dict m).fits d depth = true) {a : Value × Value} (ha : a ∈ m) :
    a.2.fits d (depth + 1) = true := by
  rw [Value.fits, Bool.and_eq_true, Value.fitEntries_iff] at h
  exact (h.2 a ha).2

theorem fits_of_forall (hdocuments : Value.haveDocuments m = true)
    (htexts : ∀ a ∈ m, a.1.isText = true) (hallows : d.allows depth = true)
    (h : ∀ name v, m.get? (.text name) = some v → v.fits d (depth + 1) = true) :
    (Value.dict m).fits d depth = true := by
  rw [Value.fits, Bool.and_eq_true, Value.fitEntries_iff]
  refine ⟨hallows, fun a ha => ⟨htexts a ha, ?_⟩⟩
  obtain ⟨key, v⟩ := a
  obtain ⟨name, rfl⟩ : ∃ name, key = .text name := by
    have htext := htexts _ ha
    cases key <;> first | exact ⟨_, rfl⟩ | cases htext
  exact h name v ((Mapping.get?_eq_some_iff fun _ _ => Value.eq_of_name hdocuments).mpr ha)

theorem fits_of_get? {m' : Mapping} (hdocuments' : Value.haveDocuments m' = true)
    (htexts' : ∀ a ∈ m', a.1.isText = true)
    (hget : ∀ name, m'.get? (.text name) = m.get? (.text name))
    (h : (Value.dict m).fits d depth = true) : (Value.dict m').fits d depth = true := by
  refine fits_of_forall hdocuments' htexts' (allows_of_fits h) fun name v hv => ?_
  rw [hget] at hv
  exact fits_of_mem h (Mapping.mem_of_get? hv)

end Fits

/-! ## Records of one kind -/

theorem make_ok {k : Kind} {args : List (String × Value)} {e : Event} (h : make k args = .ok e) :
    e.kind = k ∧ settleAll args k.fields = .ok e.attributes := by
  simp only [make] at h
  split at h
  · split at h
    · cases h
    · rename_i attributes hsettled
      obtain ⟨_, -, h⟩ := bind_ok.mp h
      cases h
      exact ⟨rfl, hsettled⟩
  · cases h

section Entries

variable {k : Kind} {entries : Mapping} {e : Event}

theorem ofEntries_ok (hdocuments : ∀ a ∈ entries, a.2.isDocument = true) :
    ofEntries k entries = .ok e ↔ ∃ m attributes, named k [] entries = .ok m ∧
      (Value.dict m).fits .record 0 = true ∧ Record.checkFields m k.fields = .ok attributes ∧
      make k attributes = .ok e := by
  unfold ofEntries
  constructor
  · intro h
    obtain ⟨m, hnamed, hrest⟩ := bind_ok.mp h
    obtain ⟨m', hthrough, hmade⟩ := bind_ok.mp hrest
    obtain ⟨hm, -⟩ := named_documents hnamed ⟨rfl, by simp⟩ hdocuments
    obtain ⟨hfits, rfl⟩ := (throughDocument_ok hm).mp hthrough
    split at hmade
    · cases hmade
    · rename_i attributes hchecked
      exact ⟨m', attributes, hnamed, hfits, hchecked, mapError_ok.mp hmade⟩
  · rintro ⟨m, attributes, hnamed, hfits, hchecked, hmake⟩
    obtain ⟨hm, -⟩ := named_documents hnamed ⟨rfl, by simp⟩ hdocuments
    refine bind_ok.mpr ⟨m, hnamed, bind_ok.mpr ⟨m, (throughDocument_ok hm).mpr ⟨hfits, rfl⟩, ?_⟩⟩
    rw [hchecked]
    exact mapError_ok.mpr hmake

theorem ofEntries_congr {entries' : Mapping} (hdocuments : ∀ a ∈ entries, a.2.isDocument = true)
    (hdocuments' : ∀ a ∈ entries', a.2.isDocument = true)
    (hkeys' : ∀ a ∈ entries', ∃ name, fieldName? k a.1 = some name)
    (hsupplied : ∀ name, supplied? k entries' name = supplied? k entries name)
    (h : ofEntries k entries = .ok e) : ofEntries k entries' = .ok e := by
  obtain ⟨m, attributes, hnamed, hfits, hchecked, hmake⟩ := (ofEntries_ok hdocuments).mp h
  obtain ⟨m', hnamed'⟩ := exists_named hkeys' []
  have hget (name : String) : m'.get? (.text name) = m.get? (.text name) := by
    rw [get?_named hnamed', get?_named hnamed, hsupplied]
  obtain ⟨hm', htexts'⟩ := named_documents hnamed' ⟨rfl, by simp⟩ hdocuments'
  refine (ofEntries_ok hdocuments').mpr
    ⟨m', attributes, hnamed', fits_of_get? hm' htexts' hget hfits, ?_, hmake⟩
  rw [← hchecked]
  exact Record.checkFields_congr fun f _ => hget f.name

theorem holds_of_ofEntries (hk : k ∈ Kind.registered)
    (hdocuments : ∀ a ∈ entries, a.2.isDocument = true) (h : ofEntries k entries = .ok e)
    {f : Field} (hf : f ∈ k.fields) :
    match supplied? k entries f.name with
    | some v => e.Holds f v
    | none => e.HoldsDefault f := by
  obtain ⟨m, attributes, hnamed, -, hchecked, hmake⟩ := (ofEntries_ok hdocuments).mp h
  obtain ⟨x, hlookup, hx⟩ := Record.lookup_checkFields hchecked (Kind.fieldNames_nodup k hk) hf
  obtain ⟨rfl, hsettled⟩ := make_ok hmake
  obtain ⟨w, hw, hattribute⟩ := lookup_settleAll hsettled (Kind.fieldNames_nodup _ hk) hf
  have hgiven : given attributes f = some x := by rw [given, hlookup, Option.some_or]
  have hget : e.get f.name = w := by rw [get, hattribute, Option.getD_some]
  rw [hgiven, Option.getD_some, ← hget] at hw
  -- the field is checked against what was supplied for it, if anything was
  have hstands : m.get? (.text f.name) = supplied? e.kind entries f.name := by
    rw [get?_named hnamed]
    exact Option.or_none
  unfold Record.part at hx
  rw [hstands] at hx
  cases hsupplied : supplied? e.kind entries f.name with
  | some v =>
    rw [hsupplied] at hx
    exact ⟨x, Record.under_ok.mp hx, hw⟩
  | none =>
    rw [hsupplied] at hx
    cases hdefault : f.default with
    | some d =>
      rw [hdefault] at hx
      cases hx
      exact ⟨_, hdefault, hw⟩
    | none =>
      rw [hdefault] at hx
      cases Record.under_ok.mp hx

end Entries

theorem Holds.get_eq {e e' : Event} {f : Field} {v : Value} (h : e.Holds f v)
    (h' : e'.Holds f v) : e'.get f.name = e.get f.name := by
  obtain ⟨x, hx, hget⟩ := h
  obtain ⟨x', hx', hget'⟩ := h'
  cases hx.symm.trans hx'
  exact Except.ok.inj (hget'.symm.trans hget)

theorem HoldsDefault.get_eq {e e' : Event} {f : Field} (h : e.HoldsDefault f)
    (h' : e'.HoldsDefault f) : e'.get f.name = e.get f.name := by
  obtain ⟨d, hd, hget⟩ := h
  obtain ⟨d', hd', hget'⟩ := h'
  cases hd.symm.trans hd'
  exact Except.ok.inj (hget'.symm.trans hget)

/-! ## Keys -/

theorem fieldName?_kind {k : Kind} (hk : k ∈ Kind.registered) :
    fieldName? k (.text "kind") = none := by
  have hkind : ∀ k ∈ Kind.registered, fieldName? k (.text "kind") = none := by decide
  exact hkind k hk

theorem fieldName?_eq_some {k : Kind} {key : Value} {name : String}
    (h : fieldName? k key = some name) :
    ∃ s, key = .text s ∧ attributeName s = name ∧ ∃ f ∈ k.fields, f.name = name := by
  unfold fieldName? at h
  split at h
  · rename_i s
    split at h
    · rename_i hmem
      cases h
      exact ⟨s, rfl, rfl, List.mem_map.mp hmem⟩
    · cases h
  · cases h

theorem reserved_attribute {k : Kind} (hk : k ∈ Kind.registered) {word : String}
    (h : word ++ "_" ∈ k.fieldNames) : k = .blocklistSmtp ∧ word = "from" := by
  obtain ⟨hsmtp, hname⟩ := (Kind.fieldNames_spelled k hk _ h).2 (by simp)
  exact ⟨hsmtp, (String.append_left_inj "_").mp hname⟩

theorem eq_or_reserved {s t : String} (h : attributeName s = attributeName t) :
    s = t ∨ (s ∈ reserved ∧ t = s ++ "_") ∨ (t ∈ reserved ∧ s = t ++ "_") := by
  unfold attributeName at h
  split at h <;> split at h
  · exact .inl ((String.append_left_inj "_").mp h)
  · rename_i hs ht
    exact .inr (.inl ⟨hs, h.symm⟩)
  · rename_i hs ht
    exact .inr (.inr ⟨ht, h⟩)
  · exact .inl h

theorem clash_of_reserved {k : Kind} (hk : k ∈ Kind.registered) {word name : String}
    (hword : word ∈ reserved) (h : fieldName? k (.text word) = some name) :
    k = .blocklistSmtp ∧ word = "from" := by
  obtain ⟨s, hs, rfl, f, hf, hname⟩ := fieldName?_eq_some h
  cases hs
  rw [attributeName, if_pos hword] at hname
  exact reserved_attribute hk (List.mem_map.mpr ⟨f, hf, hname⟩)

def HasKey (entries : Mapping) (key : String) : Prop := ∃ v, (.text key, v) ∈ entries

/-- Both keys that a record may have for the sender of a mail. -/
def TwoSenders (k : Kind) (entries : Mapping) : Prop :=
  k = .blocklistSmtp ∧ HasKey entries "from" ∧ HasKey entries "from_"

/-- Two keys of a record stand for one attribute only where both are for the sender of a mail. -/
theorem eq_or_twoSenders {k : Kind} (hk : k ∈ Kind.registered) {entries : Mapping}
    (hdocuments : Value.haveDocuments entries = true) {a b : Value × Value} (ha : a ∈ entries)
    (hb : b ∈ entries) {name : String} (hname : fieldName? k a.1 = some name)
    (hname' : fieldName? k b.1 = some name) : a = b ∨ TwoSenders k entries ∧ name = "from_" := by
  obtain ⟨key, v⟩ := a
  obtain ⟨key', w⟩ := b
  obtain ⟨s, rfl, hs, -⟩ := fieldName?_eq_some hname
  obtain ⟨t, rfl, ht, -⟩ := fieldName?_eq_some hname'
  -- one key twice has one entry; otherwise one of the two keys is a reserved word
  rcases eq_or_reserved (hs.trans ht.symm) with rfl | ⟨hword, rfl⟩ | ⟨hword, rfl⟩
  · rw [Value.eq_of_name hdocuments ha hb]
    exact .inl rfl
  · obtain ⟨hsmtp, rfl⟩ := clash_of_reserved hk hword hname
    exact .inr ⟨⟨hsmtp, ⟨v, ha⟩, w, hb⟩, ht.symm⟩
  · obtain ⟨hsmtp, rfl⟩ := clash_of_reserved hk hword hname'
    exact .inr ⟨⟨hsmtp, ⟨w, hb⟩, v, ha⟩, hs.symm⟩

theorem apart_iff {k : Kind} (hk : k ∈ Kind.registered) {entries : Mapping}
    (hdocuments : Value.haveDocuments entries = true) :
    Apart k entries ↔ ¬ TwoSenders k entries := by
  constructor
  · rintro hapart ⟨rfl, ⟨v, hv⟩, w, hw⟩
    have hsame := hapart _ hv _ hw "from_" (by rfl) (by rfl)
    simp at hsame
  · intro htwo a ha b hb name hname hname'
    exact (eq_or_twoSenders hk hdocuments ha hb hname hname').resolve_right fun h => htwo h.1

theorem supplied?_own {k : Kind} (hk : k ∈ Kind.registered) {before after : Mapping} {key v : Value}
    (hdocuments : Value.haveDocuments (before ++ (key, v) :: after) = true) {name : String}
    (hkey : fieldName? k key = some name) (hname : name ≠ "from_") :
    supplied? k (before ++ (key, v) :: after) name = some v := by
  have hmem : (key, v) ∈ before ++ (key, v) :: after :=
    List.mem_append_right _ List.mem_cons_self
  obtain ⟨w, hw⟩ := exists_supplied? hmem hkey
  obtain ⟨key', hmem', hkey'⟩ := mem_of_supplied? hw
  have hsame := (eq_or_twoSenders hk hdocuments hmem hmem' hkey hkey').resolve_right
    fun h => hname h.2
  cases hsame
  exact hw

/-! ## Whole records -/

theorem ofRecord_ok {entries : Mapping} {e : Event} :
    ofRecord (.dict entries) = .ok e ↔ ∃ kind k, entries.get? (.text "kind") = some kind ∧
      kind ≠ .none ∧ findKind kind = .ok k ∧
      ofEntries k (entries.erase (.text "kind")) = .ok e := by
  rw [ofRecord]
  constructor
  · intro h
    split at h
    · cases h
    · cases h
    · rename_i kind hne hkind
      obtain ⟨k, hk, h⟩ := bind_ok.mp h
      exact ⟨kind, k, hkind, fun heq => hne (by rw [heq]), hk, h⟩
  · rintro ⟨kind, k, hkind, hne, hk, h⟩
    rw [hkind]
    split
    · rename_i heq
      cases heq
    · rename_i heq
      cases heq
      exact absurd rfl hne
    · rename_i heq
      cases heq
      exact bind_ok.mpr ⟨k, hk, h⟩

theorem registered_of_findKind {kind : Value} {k : Kind} (h : findKind kind = .ok k) :
    k ∈ Kind.registered := by
  obtain ⟨s, -, hs⟩ := findKind_ok.mp h
  exact Kind.registered_of_find? hs

theorem supplied?_erase {k : Kind} (hk : k ∈ Kind.registered) (entries : Mapping)
    (name : String) :
    supplied? k (entries.erase (.text "kind")) name = supplied? k entries name := by
  have hpred : (fun a : Value × Value => decide ((!Mapping.sameKey a.1 (.text "kind")) = true ∧
      (fieldName? k a.1 == some name) = true)) = fun a => fieldName? k a.1 == some name := by
    funext a
    by_cases hkey : a.1 = .text "kind"
    · simp [hkey, fieldName?_kind hk]
    · simp [mt Mapping.sameKey_text.mp hkey, beq_eq_decide]
  rw [supplied?, Mapping.erase, ← List.filter_reverse, List.find?_filter, hpred, supplied?]

section Records

variable {entries : Mapping} {e : Event} (hdocument : (Value.dict entries).isDocument = true)
  (h : ofRecord (.dict entries) = .ok e)

include hdocument h

theorem entries_of_ofRecord : e.kind ∈ Kind.registered ∧
    (∃ kind, entries.get? (.text "kind") = some kind ∧ kind ≠ .none ∧ findKind kind = .ok e.kind) ∧
    (∀ a ∈ entries.erase (.text "kind"), a.2.isDocument = true) ∧
    ofEntries e.kind (entries.erase (.text "kind")) = .ok e := by
  obtain ⟨kind, k, hkind, hne, hk, hentries⟩ := ofRecord_ok.mp h
  have hdocuments : ∀ a ∈ entries.erase (.text "kind"), a.2.isDocument = true := fun a ha =>
    Value.isDocument_of_mem hdocument (List.mem_of_mem_filter ha)
  obtain ⟨m, attributes, -, -, -, hmake⟩ := (ofEntries_ok hdocuments).mp hentries
  obtain ⟨rfl, -⟩ := make_ok hmake
  exact ⟨registered_of_findKind hk, ⟨kind, hkind, hne, hk⟩, hdocuments, hentries⟩

theorem holds_of_ofRecord {f : Field} (hf : f ∈ e.kind.fields) :
    match supplied? e.kind entries f.name with
    | some v => e.Holds f v
    | none => e.HoldsDefault f := by
  obtain ⟨hk, -, hdocuments, hentries⟩ := entries_of_ofRecord hdocument h
  have hholds := holds_of_ofEntries hk hdocuments hentries hf
  rwa [supplied?_erase hk] at hholds

theorem field_of_ofRecord {a : Value × Value} (ha : a ∈ entries) (hkey : a.1 ≠ .text "kind") :
    ∃ f ∈ e.kind.fields, fieldName? e.kind a.1 = some f.name := by
  obtain ⟨-, -, hdocuments, hentries⟩ := entries_of_ofRecord hdocument h
  obtain ⟨m, attributes, hnamed, -⟩ := (ofEntries_ok hdocuments).mp hentries
  have hmem : a ∈ entries.erase (.text "kind") := by
    refine List.mem_filter.mpr ⟨ha, ?_⟩
    simpa using mt Mapping.sameKey_text.mp hkey
  obtain ⟨name, hname⟩ := fieldName_of_named hnamed a hmem
  obtain ⟨-, -, -, f, hf, rfl⟩ := fieldName?_eq_some hname
  exact ⟨f, hf, hname⟩

theorem ofRecord_perm (hapart : Apart e.kind entries) {entries' : Mapping}
    (hperm : entries'.Perm entries) : ofRecord (.dict entries') = .ok e := by
  obtain ⟨hk, ⟨kind, hkind, hne, hfind⟩, hdocuments, hentries⟩ := entries_of_ofRecord hdocument h
  have hperm' : (entries'.erase (.text "kind")).Perm (entries.erase (.text "kind")) :=
    hperm.filter _
  have hkind' : entries'.get? (.text "kind") = some kind := by
    refine (Mapping.get?_eq_some_iff fun v w hv hw => ?_).mpr
      (hperm.mem_iff.mpr (Mapping.mem_of_get? hkind))
    exact Value.eq_of_name hdocument (hperm.mem_iff.mp hv) (hperm.mem_iff.mp hw)
  obtain ⟨m, attributes, hnamed, -⟩ := (ofEntries_ok hdocuments).mp hentries
  refine ofRecord_ok.mpr ⟨kind, e.kind, hkind', hne, hfind, ?_⟩
  refine ofEntries_congr hdocuments (fun a ha => hdocuments a (hperm'.mem_iff.mp ha))
    (fun a ha => fieldName_of_named hnamed a (hperm'.mem_iff.mp ha)) (fun name => ?_) hentries
  rw [supplied?_erase hk, supplied?_erase hk, supplied?_perm hapart hperm]

end Records

theorem get_of_change {before after : Mapping} {key v w : Value} {e e' : Event}
    (hdocument : (Value.dict (before ++ (key, v) :: after)).isDocument = true)
    (hdocument' : (Value.dict (before ++ (key, w) :: after)).isDocument = true)
    (h : ofRecord (.dict (before ++ (key, v) :: after)) = .ok e)
    (h' : ofRecord (.dict (before ++ (key, w) :: after)) = .ok e') (hkind : e'.kind = e.kind)
    {f : Field} (hf : f ∈ e.kind.fields) (hkey : fieldName? e.kind key ≠ some f.name) :
    e'.get f.name = e.get f.name := by
  have hholds := holds_of_ofRecord hdocument h hf
  have hholds' := holds_of_ofRecord hdocument' h' (hkind ▸ hf)
  rw [hkind, supplied?_change (w := v) hkey] at hholds'
  cases hsupplied : supplied? e.kind (before ++ (key, v) :: after) f.name with
  | some x =>
    rw [hsupplied] at hholds hholds'
    exact Holds.get_eq hholds hholds'
  | none =>
    rw [hsupplied] at hholds hholds'
    exact HoldsDefault.get_eq hholds hholds'

/-- What a record supplies is kept: each key's attribute holds its own value, no two keys stand for
one attribute, and the order of the keys does not matter. -/
structure Kept (entries : Mapping) (e : Event) : Prop where
  holds : ∀ a ∈ entries, a.1 ≠ .text "kind" →
    ∃ f ∈ e.kind.fields, fieldName? e.kind a.1 = some f.name ∧ e.Holds f a.2
  apart : Apart e.kind entries
  order : ∀ entries' : Mapping, entries'.Perm entries → ofRecord (.dict entries') = .ok e

/-- All that an accepted object supplies is kept, unless it gives a mail two senders. Of these the
last one stays, as every last key that stands for an attribute does. -/
theorem kept_iff {entries : Mapping} {e : Event}
    (hdocument : (Value.dict entries).isDocument = true) (h : ofRecord (.dict entries) = .ok e) :
    (Kept entries e ↔ ¬ TwoSenders e.kind entries) ∧
      ∀ before key v after, entries = before ++ (key, v) :: after → key ≠ .text "kind" →
        ∃ f ∈ e.kind.fields, fieldName? e.kind key = some f.name ∧
          ((∀ a ∈ after, fieldName? e.kind a.1 ≠ some f.name) → e.Holds f v) := by
  have hk := (loaded_of_ofRecord h).registered
  refine ⟨⟨fun hkept => (apart_iff hk hdocument).mp hkept.apart, fun htwo => ?_⟩, ?_⟩
  · have hapart := (apart_iff hk hdocument).mpr htwo
    refine ⟨fun a ha hkey => ?_, hapart, fun _ => ofRecord_perm hdocument h hapart⟩
    obtain ⟨f, hf, hname⟩ := field_of_ofRecord hdocument h ha hkey
    have hsupplied := (supplied?_eq_some_iff hapart).mpr ⟨a.1, ha, hname⟩
    have hholds := holds_of_ofRecord hdocument h hf
    rw [hsupplied] at hholds
    exact ⟨f, hf, hname, hholds⟩
  · rintro before key v after rfl hkey
    have hmem : (key, v) ∈ before ++ (key, v) :: after :=
      List.mem_append_right _ List.mem_cons_self
    obtain ⟨f, hf, hname⟩ := field_of_ofRecord hdocument h hmem hkey
    refine ⟨f, hf, hname, fun hlast => ?_⟩
    have hholds := holds_of_ofRecord hdocument h hf
    rwa [supplied?_last hname hlast] at hholds

def mail (senders : List (String × String)) : Mapping :=
  [(.text "kind", .text "BlocklistSmtp"), (.text "time", .int 0), (.text "sensor", .text "s"),
    (.text "proto", .int 6), (.text "confidence", .int 1), (.text "orig_addr", .text "10.0.0.1"),
    (.text "resp_addr", .text "10.0.0.2"), (.text "start_time", .int 0)] ++
    senders.map fun (key, sender) => (.text key, .text sender)

theorem kept_mail :
    (Value.dict (mail [("from", "a")])).isDocument = true ∧
      ∃ e, ofRecord (.dict (mail [("from", "a")])) = .ok e ∧ Kept (mail [("from", "a")]) e := by
  have hdocument : (Value.dict (mail [("from", "a")])).isDocument = true := by decide +kernel
  obtain ⟨e, he⟩ := exists_of_isSome
    (show (ofRecord (.dict (mail [("from", "a")]))).toOption.isSome = true by decide +kernel)
  refine ⟨hdocument, e, he, (kept_iff hdocument he).1.mpr ?_⟩
  rintro ⟨-, -, v, hv⟩
  simp [mail] at hv

/-- One sender takes the place of the other, and which one depends on the order of the keys. -/
theorem mail_overwritten :
    (Value.dict (mail [("from", "a"), ("from_", "b")])).isDocument = true ∧
      ∃ e e', ofRecord (.dict (mail [("from", "a"), ("from_", "b")])) = .ok e ∧
        ofRecord (.dict (mail [("from_", "b"), ("from", "a")])) = .ok e' ∧
        (e.get "from_").display = "b" ∧ (e'.get "from_").display = "a" ∧
        ¬ Kept (mail [("from", "a"), ("from_", "b")]) e := by
  have hsender (senders : List (String × String)) (shown : String)
      (h : (ofRecord (.dict (mail senders))).toOption.any
        (fun e => decide ((e.get "from_").display = shown)) = true) :
      ∃ e, ofRecord (.dict (mail senders)) = .ok e ∧ (e.get "from_").display = shown := by
    obtain ⟨e, he, hshown⟩ := exists_of_any h
    exact ⟨e, he, of_decide_eq_true hshown⟩
  obtain ⟨e, he, hb⟩ := hsender [("from", "a"), ("from_", "b")] "b" (by decide +kernel)
  obtain ⟨e', he', ha⟩ := hsender [("from_", "b"), ("from", "a")] "a" (by decide +kernel)
  refine ⟨by decide +kernel, e, e', he, he', hb, ha, fun hkept => ?_⟩
  have hperm : (mail [("from_", "b"), ("from", "a")]).Perm (mail [("from", "a"), ("from_", "b")]) :=
    List.Perm.append_left _ (List.Perm.swap _ _ _)
  -- the same keys in the other order would have to give the same event
  have hsame := hkept.order _ hperm
  rw [he'] at hsame
  cases hsame
  rw [ha] at hb
  exact absurd hb (by decide)

end Detection.Event
