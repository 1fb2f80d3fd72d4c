import Detection.EventFile
import Detection.Proofs.Event.Made
import Detection.Proofs.Json.Read
import Detection.Proofs.Loader.Through

/-! # How loading a record ends

A record becomes an event, or is refused with an error that callers expect. Only a kind that cannot be
looked up or shown, and a record that goes deeper than there is room to write it, end otherwise.
-/

namespace Detection

namespace Value

def isCollection : Value → Bool
  | .list _ | .dict _ => true
  | _ => false

def kind? : Value → Option Value
  | .dict entries => Mapping.get? entries (.text "kind")
  | _ => Option.none

theorem isPlain_kind {record kind : Value} (h : record.isPlain = true)
    (hkind : record.kind? = some kind) : kind.isPlain = true := by
  unfold kind? at hkind
  split at hkind
  · obtain ⟨e, he, rfl⟩ := Option.map_eq_some_iff.mp hkind
    exact isPlain_of_mem h (List.mem_of_find?_eq_some he)
  · cases hkind

end Value

namespace Event

theorem unhashable?_of_isPlain {v : Value} (h : v.isPlain = true) :
    unhashable? v = if v.isCollection then some v.typeName else none := by
  cases v <;> first | rfl | simp [Value.isPlain] at h

/-! ## The parts of loading -/

theorem findKind_cases (kind : Value) (room : Option Nat) :
    (∃ k ∈ Kind.registered, findKind kind room = .ok k) ∨
      findKind kind room = .error (.unknownKind kind) ∨
      (∃ cause, kind.displayExcess? room = some cause ∧
        findKind kind room = .error (.unmade cause)) ∨
      ∃ typeName, unhashable? kind = some typeName ∧
        findKind kind room = .error (.unhashable typeName) := by
  have hunknown : unknownKind room kind = .unknownKind kind ∨
      ∃ cause, kind.displayExcess? room = some cause ∧ unknownKind room kind = .unmade cause := by
    unfold unknownKind
    cases kind.displayExcess? room with
    | none => exact .inl rfl
    | some cause => exact .inr ⟨cause, rfl, rfl⟩
  unfold findKind
  cases hkind : unhashable? kind with
  | some typeName => exact .inr (.inr (.inr ⟨typeName, rfl, rfl⟩))
  | none =>
    cases kind
    case text s =>
      cases hfind : Kind.find? s with
      | some k => exact .inl ⟨k, Kind.registered_of_find? hfind, by simp only [hfind]⟩
      | none => exact .inr (.inl (by simp only [hfind]))
    all_goals
      refine .inr ?_
      rcases hunknown with hself | ⟨cause, hcause, hunmade⟩
      · exact .inl (congrArg Except.error hself)
      · exact .inr (.inl ⟨cause, hcause, congrArg Except.error hunmade⟩)

theorem findKind_ok {kind : Value} {room : Option Nat} {k : Kind} :
    findKind kind room = .ok k ↔ ∃ s, kind = .text s ∧ Kind.find? s = some k := by
  constructor
  · intro h
    unfold findKind at h
    split at h
    · cases h
    · split at h
      · split at h <;> cases h
        exact ⟨_, rfl, by assumption⟩
      · cases h
  · rintro ⟨s, rfl, hs⟩
    simp only [findKind, unhashable?, hs]

theorem named_expected {k : Kind} {sofar entries : Mapping} {err : LoadError}
    (h : named k sofar entries = .error err) : ∃ key, err = .unknownField k key := by
  induction entries generalizing sofar with
  | nil => cases h
  | cons e es ih =>
    rw [named] at h
    split at h
    · exact ih h
    · cases h
      exact ⟨_, rfl⟩

/-- Whether the writer goes deeper into the entries than there is room. -/
def IsTooDeep (room : Option Nat) (entries : Mapping) (doing : String) : Prop :=
  ∃ plain, Record.plainEntries entries = .ok plain ∧
    Json.excess? room (.dict plain) = some (.calls doing)

theorem not_isTooDeep {entries : Mapping} {doing : String} : ¬IsTooDeep none entries doing := by
  rintro ⟨plain, -, hexcess⟩
  cases Value.excess?_unlimited _ _ hexcess

theorem throughDocument_error {k : Kind} {entries : Mapping} {room : Option Nat} {err : LoadError}
    (h : throughDocument k entries room = .error err) :
    (∃ cause, err = .notText k cause) ∨ (∃ cause column, err = .document k cause column) ∨
      err = .unwritten k ∨ ∃ doing, IsTooDeep room entries doing ∧ err = .unmade (.calls doing) := by
  unfold throughDocument at h
  cases hplain : Record.plainEntries entries with
  | error cause =>
    rw [hplain] at h
    cases h
    exact .inl ⟨cause, rfl⟩
  | ok plain =>
    rw [hplain] at h
    simp only [ok_mapError, bind, Except.bind, written] at h
    cases hexcess : Json.excess? room (.dict plain) with
    | none =>
      rw [hexcess] at h
      simp only at h
      split at h <;> cases h
      exact .inr (.inl ⟨_, _, rfl⟩)
    | some cause =>
      rw [hexcess] at h
      cases cause with
      | digits =>
        cases h
        exact .inr (.inr (.inl rfl))
      | calls doing =>
        cases h
        exact .inr (.inr (.inr ⟨doing, ⟨plain, hplain, hexcess⟩, rfl⟩))

theorem throughDocument_deep {k : Kind} {entries : Mapping} {room : Option Nat} {doing : String}
    (h : IsTooDeep room entries doing) :
    throughDocument k entries room = .error (.unmade (.calls doing)) := by
  obtain ⟨plain, hplain, hexcess⟩ := h
  simp only [throughDocument, written, hplain, ok_mapError, bind, Except.bind, hexcess, unwritten]

theorem read_of_throughDocument {k : Kind} {entries m : Mapping} {room : Option Nat}
    (h : throughDocument k entries room = .ok m) :
    (Value.dict m).isDocument = true ∧ (Value.dict m).fits .record 0 = true := by
  unfold throughDocument at h
  obtain ⟨plain, -, h⟩ := bind_ok.mp h
  obtain ⟨chars, -, h⟩ := bind_ok.mp h
  split at h
  · rename_i hread
    cases h
    exact ⟨Json.isDocument_of_read hread, Json.fits_of_read hread⟩
  · cases h
    exact ⟨rfl, rfl⟩
  · cases h

theorem admits_of_checkFields {k : Kind} (hk : k ∈ Kind.registered) {entries : Mapping}
    (hfits : (Value.dict entries).fits .record 0 = true) {attributes : List (String × Value)}
    (h : Record.checkFields entries k.fields = .ok attributes) :
    ∀ f ∈ k.fields, ∃ v, attributes.lookup f.name = some v ∧ f.type.Admits v := by
  intro f hf
  obtain ⟨v, hlookup, hv⟩ := Record.lookup_checkFields h (Kind.fieldNames_nodup k hk) hf
  refine ⟨v, hlookup, ?_⟩
  rcases Record.part_ok hv with ⟨x, hget, hx⟩ | hdefault
  · exact Record.check_admits (Value.fits_of_get? hfits hget) hx
  · exact Kind.default_admits hk hf hdefault

theorem make_checked {k : Kind} (hk : k ∈ Kind.registered) {entries : Mapping}
    (hfits : (Value.dict entries).fits .record 0 = true) {attributes : List (String × Value)}
    (h : Record.checkFields entries k.fields = .ok attributes) :
    (∃ e, make k attributes = .ok e ∧ e.Loaded) ∨
      ∃ lengths, make k attributes = .error (.side (.misaligned lengths)) :=
  make_of_admits hk (admits_of_checkFields hk hfits h)

theorem ofEntries_cases {k : Kind} (hk : k ∈ Kind.registered) (entries : Mapping)
    (room : Option Nat) :
    (∃ e, ofEntries k entries room = .ok e ∧ e.Loaded) ∨
      (∃ err, ofEntries k entries room = .error err ∧
        (EventFileError.record err).isExpected = true) ∨
      ∃ m doing, named k [] entries = .ok m ∧ IsTooDeep room m doing ∧
        ofEntries k entries room = .error (.unmade (.calls doing)) := by
  -- step by step: the names, the document, the fields, the event
  unfold ofEntries
  cases hnamed : named k [] entries with
  | error err =>
    obtain ⟨key, rfl⟩ := named_expected hnamed
    exact .inr (.inl ⟨_, rfl, rfl⟩)
  | ok m =>
    simp only [bind, Except.bind]
    cases hdocument : throughDocument k m room with
    | error err =>
      rcases throughDocument_error hdocument with
        ⟨cause, rfl⟩ | ⟨cause, column, rfl⟩ | rfl | ⟨doing, hdeep, rfl⟩
      · exact .inr (.inl ⟨_, rfl, rfl⟩)
      · exact .inr (.inl ⟨_, rfl, rfl⟩)
      · exact .inr (.inl ⟨_, rfl, rfl⟩)
      · exact .inr (.inr ⟨m, doing, rfl, hdeep, rfl⟩)
    | ok entries =>
      simp only
      cases hchecked : Record.checkFields entries k.fields with
      | error issues => exact .inr (.inl ⟨_, rfl, rfl⟩)
      | ok attributes =>
        simp only
        obtain ⟨-, hfits⟩ := read_of_throughDocument hdocument
        rcases make_checked hk hfits hchecked with ⟨e, he, hloaded⟩ | ⟨lengths, herror⟩
        · rw [he]
          exact .inl ⟨e, rfl, hloaded⟩
        · rw [herror]
          exact .inr (.inl ⟨_, rfl, rfl⟩)

/-! ## Records -/

/-- The entries of a record of a known kind, under the names of their fields. -/
def payload? : Value → Option Mapping
  | .dict entries =>
    match Mapping.get? entries (.text "kind") with
    | some (.text s) =>
      (Kind.find? s).bind fun k =>
        (named k [] (Mapping.erase entries (.text "kind"))).toOption
    | _ => none
  | _ => none

/-- A record loads, is refused with an expected error, or ends otherwise in one of three ways. -/
theorem ofRecord_cases (record : Value) (room : Option Nat) :
    (∃ e, ofRecord record room = .ok e ∧ e.Loaded) ∨
      (∃ err, ofRecord record room = .error err ∧
        (EventFileError.record err).isExpected = true) ∨
      (∃ kind cause, record.kind? = some kind ∧ kind.displayExcess? room = some cause ∧
        ofRecord record room = .error (.unmade cause)) ∨
      (∃ kind typeName, record.kind? = some kind ∧ unhashable? kind = some typeName ∧
        ofRecord record room = .error (.unhashable typeName)) ∨
      ∃ m doing, payload? record = some m ∧ IsTooDeep room m doing ∧
        ofRecord record room = .error (.unmade (.calls doing)) := by
  unfold ofRecord
  split
  · rename_i entries
    split
    · exact .inr (.inl ⟨_, rfl, rfl⟩)
    · exact .inr (.inl ⟨_, rfl, rfl⟩)
    · rename_i kind _ hkind
      rcases findKind_cases kind room with
        ⟨k, hk, hfind⟩ | hfind | ⟨cause, hcause, hfind⟩ | ⟨typeName, hun, hfind⟩
      · rw [hfind]
        rcases ofEntries_cases hk (Mapping.erase entries (.text "kind")) room with
          hok | herror | ⟨m, doing, hnamed, hdeep, herror⟩
        · exact .inl hok
        · exact .inr (.inl herror)
        · refine .inr (.inr (.inr (.inr ⟨m, doing, ?_, hdeep, herror⟩)))
          obtain ⟨s, rfl, hs⟩ := findKind_ok.mp hfind
          simp [payload?, hkind, hs, hnamed, Except.toOption]
      · rw [hfind]
        exact .inr (.inl ⟨_, rfl, rfl⟩)
      · rw [hfind]
        exact .inr (.inr (.inl ⟨kind, cause, hkind, hcause, rfl⟩))
      · rw [hfind]
        exact .inr (.inr (.inr (.inl ⟨kind, typeName, hkind, hun, rfl⟩)))
  · exact .inr (.inl ⟨_, rfl, rfl⟩)

theorem loaded_of_ofRecord {record : Value} {e : Event} (h : ofRecord record = .ok e) :
    e.Loaded := by
  rcases ofRecord_cases record none with
    ⟨e', he, hloaded⟩ | ⟨_, herror, -⟩ | ⟨_, _, -, -, herror⟩ | ⟨_, _, -, -, herror⟩ |
      ⟨_, _, -, -, herror⟩
  · rw [h] at he
    cases he
    exact hloaded
  all_goals
    rw [h] at herror
    cases herror

theorem loaded_of_ofDocument {document : Value} {events : List Event}
    (h : ofDocument document = .ok events) : ∀ e ∈ events, e.Loaded := by
  intro e he
  unfold ofDocument at h
  split at h
  · rw [mapM_ok] at h
    obtain ⟨record, -, hrecord⟩ := exists_of_map_ok h he
    exact loaded_of_ofRecord hrecord
  · obtain ⟨e', hrecord, ⟨⟩⟩ := bind_ok.mp h
    obtain rfl := List.mem_singleton.mp he
    exact loaded_of_ofRecord hrecord

def portScan (source : String) : Value :=
  Mapping.record
    [("kind", .text "PortScan"), ("time", .int 0), ("sensor", .text "s"), ("proto", .int 6),
      ("confidence", .int 1), ("orig_addr", .text source), ("resp_addr", .text "10.0.0.1"),
      ("start_time", .int 0), ("end_time", .int 0)]

theorem exists_portScan : ∃ e, ofRecord (portScan "fe80::1%eth0") = .ok e :=
  exists_of_isSome (by decide +kernel)

/-! ## Records that end otherwise -/

section Escapes

variable {record kind : Value} {room : Option Nat}

theorem ofRecord_of_unfound (hkind : record.kind? = some kind) (hnone : kind ≠ .none)
    {err : LoadError} (hfind : findKind kind room = .error err) :
    ofRecord record room = .error err := by
  unfold Value.kind? at hkind
  split at hkind
  · simp only [ofRecord]
    split
    · rename_i heq
      rw [hkind] at heq
      cases heq
    · rename_i heq
      rw [hkind] at heq
      cases heq
      exact absurd rfl hnone
    · rename_i heq
      rw [hkind] at heq
      cases heq
      rw [hfind]
      rfl
  · cases hkind

theorem ofRecord_unhashable (hkind : record.kind? = some kind) {typeName : String}
    (hun : unhashable? kind = some typeName) :
    ofRecord record room = .error (.unhashable typeName) := by
  refine ofRecord_of_unfound hkind ?_ ?_
  · rintro rfl
    cases hun
  · unfold findKind
    rw [hun]

theorem ofRecord_unshown (hkind : record.kind? = some kind) (hun : unhashable? kind = none)
    {cause : Excess} (hcause : kind.displayExcess? room = some cause) :
    ofRecord record room = .error (.unmade cause) := by
  refine ofRecord_of_unfound hkind ?_ ?_
  · rintro rfl
    cases hcause
  · unfold findKind
    rw [hun]
    cases kind
    case text => cases hcause
    all_goals simp only [unknownKind, hcause]

theorem ofRecord_deep {m : Mapping} (hpayload : payload? record = some m) {doing : String}
    (hdeep : IsTooDeep room m doing) :
    ofRecord record room = .error (.unmade (.calls doing)) := by
  unfold payload? at hpayload
  split at hpayload
  · split at hpayload
    · rename_i s hkind
      obtain ⟨k, hk, hnamed⟩ := Option.bind_eq_some_iff.mp hpayload
      have hfind : findKind (.text s) room = .ok k := findKind_ok.mpr ⟨s, rfl, hk⟩
      simp only [ofRecord, hkind, hfind, ofEntries, toOption_eq_some.mp hnamed, bind, Except.bind,
        throughDocument_deep hdeep]
    · cases hpayload
  · cases hpayload

end Escapes

theorem isPlainEntries_named {k : Kind} {sofar entries m : Mapping}
    (hsofar : Value.isPlainEntries sofar = true) (hentries : Value.isPlainEntries entries = true)
    (h : named k sofar entries = .ok m) : Value.isPlainEntries m = true := by
  induction entries generalizing sofar with
  | nil =>
    cases h
    exact hsofar
  | cons e es ih =>
    rw [Value.isPlainEntries_iff, List.forall_mem_cons, ← Value.isPlainEntries_iff] at hentries
    rw [named] at h
    split at h
    · exact ih (Value.isPlainEntries_put hsofar hentries.1.2) hentries.2 h
    · cases h

theorem isPlainEntries_payload {record : Value} (h : record.isPlain = true) {m : Mapping}
    (hm : payload? record = some m) : Value.isPlainEntries m = true := by
  unfold payload? at hm
  split at hm
  · rename_i entries
    split at hm
    · obtain ⟨k, -, hnamed⟩ := Option.bind_eq_some_iff.mp hm
      have hentries : Value.isPlainEntries entries = true := h
      rw [Value.isPlainEntries_iff] at hentries
      refine isPlainEntries_named rfl ?_ (toOption_eq_some.mp hnamed)
      exact Value.isPlainEntries_iff.mpr fun e he => hentries e (List.mem_of_mem_filter he)
    · cases hm
  · cases hm

/-- A plain record loads or is refused with an expected error, unless the kind it names is a list, an
object or has no text, or its entries go deeper than there is room to write them. These end in errors
no caller expects. -/
theorem ofRecord_expected_iff (room : Option Nat) {record : Value} (h : record.isPlain = true) :
    (((∃ e, ofRecord record room = .ok e) ∨
        ∃ err, ofRecord record room = .error err ∧
          (EventFileError.record err).isExpected = true) ↔
      (∀ kind, record.kind? = some kind →
        kind.isCollection = false ∧ kind.displayExcess? room = none) ∧
      ∀ m, payload? record = some m → ∀ doing, Json.excess? room (.dict m) ≠ some (.calls doing)) ∧
    (∀ kind, record.kind? = some kind → kind.isCollection = true →
      ofRecord record room = .error (.unhashable kind.typeName)) ∧
    (∀ kind cause, record.kind? = some kind → kind.isCollection = false →
      kind.displayExcess? room = some cause → ofRecord record room = .error (.unmade cause)) ∧
    ∀ m doing, payload? record = some m → Json.excess? room (.dict m) = some (.calls doing) →
      ofRecord record room = .error (.unmade (.calls doing)) := by
  have hunhashable {kind : Value} (hkind : record.kind? = some kind) :=
    unhashable?_of_isPlain (Value.isPlain_kind h hkind)
  have hdeep {m : Mapping} (hm : payload? record = some m) (doing : String) :
      IsTooDeep room m doing ↔ Json.excess? room (.dict m) = some (.calls doing) := by
    have hplain := Record.plainEntries_of_isPlain m (isPlainEntries_payload h hm)
    simp [IsTooDeep, hplain]
  have hcollection : ∀ kind, record.kind? = some kind → kind.isCollection = true →
      ofRecord record room = .error (.unhashable kind.typeName) := by
    intro kind hkind hcollection
    exact ofRecord_unhashable hkind (by rw [hunhashable hkind, if_pos hcollection])
  have hunshown : ∀ kind cause, record.kind? = some kind → kind.isCollection = false →
      kind.displayExcess? room = some cause → ofRecord record room = .error (.unmade cause) := by
    intro kind cause hkind hsingle hcause
    exact ofRecord_unshown hkind (by rw [hunhashable hkind, if_neg (by simp [hsingle])]) hcause
  have hunwritten : ∀ m doing, payload? record = some m →
      Json.excess? room (.dict m) = some (.calls doing) →
        ofRecord record room = .error (.unmade (.calls doing)) :=
    fun m doing hm hexcess => ofRecord_deep hm ((hdeep hm doing).mpr hexcess)
  -- a record ends in one way only
  have hends {err : LoadError} (herror : ofRecord record room = .error err)
      (hexpected : (EventFileError.record err).isExpected = false) :
      ¬((∃ e, ofRecord record room = .ok e) ∨ ∃ err, ofRecord record room = .error err ∧
        (EventFileError.record err).isExpected = true) := by
    rintro (⟨e, he⟩ | ⟨err', he, hexpected'⟩)
    · cases herror.symm.trans he
    · cases herror.symm.trans he
      cases hexpected.symm.trans hexpected'
  refine ⟨⟨fun hreturns => ⟨fun kind hkind => ?_, fun m hm doing hexcess => ?_⟩, ?_⟩, hcollection,
    hunshown, hunwritten⟩
  · have hsingle : kind.isCollection = false := Bool.eq_false_iff.mpr fun hcollected =>
      hends (hcollection kind hkind hcollected) rfl hreturns
    refine ⟨hsingle, Option.eq_none_iff_forall_ne_some.mpr fun cause hcause => ?_⟩
    exact hends (hunshown kind cause hkind hsingle hcause) rfl hreturns
  · exact hends (hunwritten m doing hm hexcess) rfl hreturns
  · rintro ⟨hkinds, hpayload⟩
    rcases ofRecord_cases record room with
      ⟨e, he, -⟩ | hexpected | ⟨kind, cause, hkind, hcause, -⟩ | ⟨kind, typeName, hkind, hun, -⟩ |
        ⟨m, doing, hm, hm', -⟩
    · exact .inl ⟨e, he⟩
    · exact .inr hexpected
    · rw [(hkinds kind hkind).2] at hcause
      cases hcause
    · rw [hunhashable hkind, (hkinds kind hkind).1] at hun
      cases hun
    · exact absurd ((hdeep hm doing).mp hm') (hpayload m hm doing)

def strangeRecord : Value := Mapping.record [("kind", .text "port scam")]

theorem ofRecord_strange :
    strangeRecord.isPlain = true ∧
      ((∃ e, ofRecord strangeRecord (some Excess.usualRoom) = .ok e) ∨
        ∃ err, ofRecord strangeRecord (some Excess.usualRoom) = .error err ∧
          (EventFileError.record err).isExpected = true) := by
  have hplain : strangeRecord.isPlain = true := by decide
  refine ⟨hplain, (ofRecord_expected_iff _ hplain).1.mpr ⟨?_, ?_⟩⟩
  · intro kind hkind
    cases hkind
    exact ⟨rfl, rfl⟩
  · intro m hm
    cases hm

def listKindRecord : Value := Mapping.record [("kind", .list [])]

theorem ofRecord_listKind :
    listKindRecord.isPlain = true ∧
      ∃ err, ofRecord listKindRecord = .error err ∧
        (EventFileError.record err).isExpected = false :=
  ⟨by decide, .unhashable "list", rfl, rfl⟩

end Event

end Detection
