import Detection.Proofs.Loader.Aligned

/-! # Events made without a record

The values of a record can be given to an event's kind directly, each in the form its field keeps
and every sequence as a list. The kind makes tuples of the lists by itself, and it looks at the sides
by itself, so nothing depends on which way an event comes about.
-/

namespace Detection

/-! ## Values given directly -/

namespace FieldType

def wireValue (r : Except Wire.Error Value) : Value := r.toOption.getD .none

def numberOf : Value → Value
  | .int n => .real (Binary64.ofInt n)
  | v => v

/-- A part of an object, or what it is when it is absent. -/
def partOf (entries : Mapping) (name : String) (blank : Value) : Value :=
  (entries.get? (.text name)).getD blank

/-- The value of a field for what a record supplies. Sequences stay lists, pairs as well. -/
def converted : FieldType → Value → Value
  | .number, v => numberOf v
  | .address, v => wireValue (Wire.address v)
  | .time, v => wireValue (Wire.time v)
  | .country, v => wireValue (Wire.country v)
  | .payload, v => wireValue (Wire.payload v)
  | .category, v => wireValue (Wire.category v)
  | .score, .dict entries =>
    .score (partOf entries "policy_id" .none) (numberOf (partOf entries "score" .none))
  | .command, .dict entries =>
    .command (partOf entries "command" .none) (partOf entries "reply_code" (.text ""))
      (partOf entries "reply_msg" (.text ""))
  | .optional _, .none => .none
  | .optional t, v => converted t v
  | .sequence t, .list items => .list (items.map (converted t))
  | _, v => v

/-- There is no sequence in a value of this type. -/
def isFlat : FieldType → Bool
  | .textPair | .sequence _ => false
  | .optional t => t.isFlat
  | _ => true

/-- Sequences in a value of this type are the value itself, or pairs in a sequence of pairs. -/
def isShallow : FieldType → Bool
  | .sequence .textPair => true
  | .sequence t | .optional (.sequence t) => t.isFlat
  | t => t.isFlat

end FieldType

open FieldType (converted)

theorem Kind.isShallow_fields : ∀ k ∈ registered, ∀ f ∈ k.fields, f.type.isShallow = true := by
  decide

namespace Record

/-! ## Checked values and converted ones -/

theorem part_ok_cases {entries : Mapping} {name : String} {default : Option Value}
    {check : Value → Checked Value} {w : Value} (h : part entries name default check = .ok w) :
    (∃ v, entries.get? (.text name) = some v ∧ check v = .ok w) ∨
      entries.get? (.text name) = none ∧ default = some w := by
  unfold part at h
  split at h
  · rename_i v hget
    exact .inl ⟨v, hget, under_ok.mp h⟩
  · rename_i d hget
    exact .inr ⟨hget, by rw [Except.ok.inj h]⟩
  · cases under_ok.mp h

theorem checkText_eq {v w : Value} (h : checkText v = .ok w) : v = w := by
  unfold checkText at h
  split at h
  · exact Except.ok.inj h
  · cases h

theorem checkInteger_eq {v w : Value} (h : checkInteger v = .ok w) : v = w := by
  unfold checkInteger at h
  split at h
  · exact Except.ok.inj h
  · cases h

theorem numberOf_checkNumber {v w : Value} (h : checkNumber v = .ok w) :
    FieldType.numberOf v = w := by
  unfold checkNumber at h
  split at h
  · exact Except.ok.inj h
  · exact Except.ok.inj h
  · cases h

theorem wireValue_wired {r : Except Wire.Error Value} {w : Value} (h : wired r = .ok w) :
    FieldType.wireValue r = w := by
  rw [wired_ok.mp h]
  rfl

theorem converted_checkScore {v w : Value} (h : checkScore v = .ok w) :
    converted .score v = w := by
  unfold checkScore at h
  split at h
  · obtain ⟨⟨policy, score⟩, hparts, rfl⟩ := map_ok.mp h
    obtain ⟨hpolicy, hscore⟩ := both_ok.mp hparts
    obtain ⟨p, hp, hpolicy⟩ | ⟨-, ⟨⟩⟩ := part_ok_cases hpolicy
    obtain ⟨x, hx, hscore⟩ | ⟨-, ⟨⟩⟩ := part_ok_cases hscore
    simp only [converted, FieldType.partOf, hp, hx, Option.getD_some, checkInteger_eq hpolicy,
      numberOf_checkNumber hscore]
  · cases h

theorem partOf_checkText {entries : Mapping} {name : String} {w : Value}
    (h : part entries name (some (.text "")) checkText = .ok w) :
    FieldType.partOf entries name (.text "") = w := by
  obtain ⟨v, hv, hcheck⟩ | ⟨hnone, hblank⟩ := part_ok_cases h
  · rw [FieldType.partOf, hv, Option.getD_some, checkText_eq hcheck]
  · rw [FieldType.partOf, hnone, Option.getD_none]
    exact Option.some.inj hblank

theorem converted_checkCommand {v w : Value} (h : checkCommand v = .ok w) :
    converted .command v = w := by
  unfold checkCommand at h
  split at h
  · obtain ⟨⟨command, code, reply⟩, hparts, rfl⟩ := map_ok.mp h
    obtain ⟨hcommand, hrest⟩ := both_ok.mp hparts
    obtain ⟨hcode, hreply⟩ := both_ok.mp hrest
    obtain ⟨c, hc, hcommand⟩ | ⟨-, ⟨⟩⟩ := part_ok_cases hcommand
    simp only [converted, partOf_checkText hcode, partOf_checkText hreply]
    rw [FieldType.partOf, hc, Option.getD_some, checkText_eq hcommand]
  · cases h

theorem converted_of_flat {t : FieldType} {v w : Value} (ht : t.isFlat = true)
    (h : check t v = .ok w) : converted t v = w := by
  induction t with
  | text => exact checkText_eq h
  | integer => exact checkInteger_eq h
  | number => exact numberOf_checkNumber h
  | flag =>
    simp only [check] at h
    split at h
    · exact Except.ok.inj h
    · cases h
  | address => exact wireValue_wired h
  | time => exact wireValue_wired h
  | country => exact wireValue_wired h
  | payload => exact wireValue_wired h
  | category => exact wireValue_wired h
  | score => exact converted_checkScore h
  | command => exact converted_checkCommand h
  | optional t ih =>
    simp only [check] at h
    split at h
    · exact Except.ok.inj h
    · rename_i hne
      rw [converted]
      · exact ih ht h
      · exact hne
  | textPair => cases ht
  | sequence t => cases ht

theorem checkItems_ok {t : FieldType} {v w : Value} (h : check (.sequence t) v = .ok w) :
    ∃ items ws, v = .list items ∧ w = .tuple ws ∧ items.map (check t) = ws.map .ok := by
  simp only [check] at h
  split at h
  · rename_i items
    obtain ⟨ws, hall, rfl⟩ := map_ok.mp h
    exact ⟨items, ws, rfl, rfl, allFrom_ok.mp hall⟩
  · cases h

theorem converted_sequence {t : FieldType} (ht : t.isFlat = true) {v w : Value}
    (h : check (.sequence t) v = .ok w) :
    ∃ ws, converted (.sequence t) v = .list ws ∧ w = .tuple ws := by
  obtain ⟨items, ws, rfl, rfl, hitems⟩ := checkItems_ok h
  have hconverted := map_eq_of_map_ok (fun _ _ => converted_of_flat ht) hitems
  exact ⟨ws, by rw [converted, hconverted, List.map_id'], rfl⟩

theorem converted_textPair {v w : Value} (h : check .textPair v = .ok w) :
    ∃ ws, converted .textPair v = .list ws ∧ w = .tuple ws := by
  have haccepts := exists_checkTextPair_iff.mp ⟨w, h⟩
  cases haccepts with
  | textPair a b =>
    refine ⟨[.text a, .text b], rfl, ?_⟩
    exact (Except.ok.inj h).symm

end Record

namespace Event

/-! ## Settling what is given directly -/

theorem settle_list {f : Field} (hpair : f.type ≠ .sequence .textPair) (vs : List Value) :
    settle f (.list vs) = settle f (.tuple vs) := by
  have hsettled : settle f (.tuple vs) = .ok (.tuple vs) := settled_of_ne hpair nofun nofun
  rw [hsettled]
  unfold settle
  split
  · contradiction
  · contradiction
  · rename_i heq _
    cases heq
    rfl
  · rename_i hlist _
    exact absurd rfl (hlist _)

theorem settle_pairs {f : Field} (hpair : f.type = .sequence .textPair) {items ws : List Value}
    (h : items.map (Record.check .textPair) = ws.map .ok) :
    settle f (.list (items.map (converted .textPair))) = settle f (.tuple ws) := by
  have hsequences : (items.map (converted .textPair)).map sequence = ws.map sequence := by
    rw [List.map_map]
    refine map_eq_of_map_ok (fun v w hcheck => ?_) h
    obtain ⟨texts, hconverted, rfl⟩ := Record.converted_textPair hcheck
    rw [Function.comp_apply, hconverted]
    rfl
  have hmapM (vs : List Value) : vs.mapM sequence = (vs.map sequence).mapM id := by
    rw [List.mapM_map]
    rfl
  unfold settle
  rw [hpair]
  have hlist (vs : List Value) : sequence (.list vs) = .ok vs := rfl
  have htuple (vs : List Value) : sequence (.tuple vs) = .ok vs := rfl
  simp only [hlist, htuple, bind, Except.bind]
  rw [hmapM, hmapM ws, hsequences]

theorem settle_converted {f : Field} (hf : f.type.isShallow = true) {v w : Value}
    (h : Record.check f.type v = .ok w) : settle f (converted f.type v) = settle f w := by
  have hflat (t : FieldType) (ht : t.isFlat = true) (hcheck : Record.check t v = .ok w) :
      settle f (converted t v) = settle f w := by rw [Record.converted_of_flat ht hcheck]
  have hsequence (t : FieldType) (ht : t.isFlat = true) (hpair : f.type ≠ .sequence .textPair)
      (hcheck : Record.check (.sequence t) v = .ok w) :
      settle f (converted (.sequence t) v) = settle f w := by
    obtain ⟨ws, hconverted, rfl⟩ := Record.converted_sequence ht hcheck
    rw [hconverted, settle_list hpair]
  cases htype : f.type with
  | sequence t =>
    rw [htype] at hf h
    -- pairs stay lists when converted, and become tuples when settled
    by_cases hpair : t = .textPair
    · subst hpair
      obtain ⟨items, ws, rfl, rfl, hitems⟩ := Record.checkItems_ok h
      exact settle_pairs htype hitems
    · refine hsequence t ?_ (by simpa [htype] using hpair) h
      cases t <;> first | exact hf | exact absurd rfl hpair
  | optional t =>
    rw [htype] at hf h
    have hpair : f.type ≠ .sequence .textPair := by simp [htype]
    by_cases hnone : v = .none
    · subst hnone
      rw [converted]
      exact congrArg _ (Except.ok.inj h)
    · have hcheck : Record.check t v = .ok w := by
        simp only [Record.check] at h
        exact h
      have hconverted : converted (.optional t) v = converted t v := by
        rw [converted]
        exact hnone
      rw [hconverted]
      cases t with
      | sequence u => exact hsequence u hf hpair hcheck
      | _ => exact hflat _ hf hcheck
  | _ =>
    rw [htype] at hf h
    exact hflat _ hf h

/-! ## Making an event directly -/

/-- What a record gives a kind: the converted value of each key, under the name of its field. -/
def arguments (k : Kind) (entries : Mapping) : List (String × Value) :=
  entries.filterMap fun (key, v) => do
    let name ← fieldName? k key
    let f ← k.fields.find? (·.name = name)
    pure (name, converted f.type v)

theorem find?_name {k : Kind} (hk : k ∈ Kind.registered) {f : Field} (hf : f ∈ k.fields) :
    k.fields.find? (·.name = f.name) = some f := by
  have hsome : (k.fields.find? (·.name = f.name)).isSome = true := by
    rw [List.find?_isSome]
    exact ⟨f, hf, decide_eq_true rfl⟩
  obtain ⟨g, hg⟩ := Option.isSome_iff_exists.mp hsome
  have hname := List.find?_some hg
  rw [decide_eq_true_eq] at hname
  have hsame : g = f := Kind.eq_of_name hk (List.mem_of_find?_eq_some hg) hf hname
  rw [hg, hsame]

theorem lookup_arguments {k : Kind} (hk : k ∈ Kind.registered) {entries : Mapping}
    (hapart : Apart k entries) {f : Field} (hf : f ∈ k.fields) :
    (arguments k entries).lookup f.name =
      (supplied? k entries f.name).map (converted f.type) := by
  induction entries with
  | nil => rfl
  | cons a entries ih =>
    obtain ⟨key, v⟩ := a
    have hrest : Apart k entries := fun a ha b hb =>
      hapart a (List.mem_cons_of_mem _ ha) b (List.mem_cons_of_mem _ hb)
    rw [supplied?_cons]
    by_cases hkey : fieldName? k key = some f.name
    · -- a later key for the same field would be this key with this value
      have hsame : ∀ w, supplied? k entries f.name = some w → w = v := by
        intro w hw
        obtain ⟨key', hmem, hkey'⟩ := mem_of_supplied? hw
        have heq := hapart _ (List.mem_cons_of_mem _ hmem) _ List.mem_cons_self _ hkey' hkey
        exact congrArg Prod.snd heq
      have hsupplied : (supplied? k entries f.name).or (some v) = some v := by
        cases hw : supplied? k entries f.name with
        | none => rfl
        | some w => rw [hsame w hw, Option.some_or]
      rw [if_pos hkey, hsupplied]
      simp [arguments, hkey, find?_name hk hf]
    · rw [if_neg hkey, Option.or_none, ← ih hrest]
      cases hname : fieldName? k key with
      | none => simp [arguments, hname]
      | some name =>
        have hne : (f.name == name) = false := by
          rw [hname, Option.some.injEq] at hkey
          exact beq_eq_false_iff_ne.mpr fun heq => hkey heq.symm
        cases hfind : k.fields.find? (·.name = name) with
        | none => simp [arguments, hname, hfind]
        | some g => simp [arguments, hname, hfind, List.lookup_cons, hne]

theorem make_congr {k : Kind} {args args' : List (String × Value)}
    (hgiven : ∀ f ∈ k.fields, (given args f).isNone = (given args' f).isNone)
    (hsettle : ∀ f ∈ k.fields, settle f ((given args f).getD .none) =
      settle f ((given args' f).getD .none)) : make k args = make k args' := by
  have hmissing : (k.fields.filter fun f => (given args f).isNone) =
      k.fields.filter fun f => (given args' f).isNone := List.filter_congr hgiven
  have hall (fs : List Field) (hfs : ∀ f ∈ fs, f ∈ k.fields) :
      settleAll args fs = settleAll args' fs := by
    induction fs with
    | nil => rfl
    | cons f fs ih =>
      obtain ⟨hf, hfs⟩ := List.forall_mem_cons.mp hfs
      rw [settleAll, settleAll, hsettle f hf, ih hfs]
  -- a call sees its arguments in what is missing and in what is settled, and nowhere else
  have hsettled := hall k.fields fun _ => id
  simp only [make, hmissing]
  split
  · split
    · rename_i heq
      split
      · rename_i heq'
        rw [hsettled, heq'] at heq
        cases heq
        rfl
      · rename_i heq'
        rw [hsettled, heq'] at heq
        cases heq
    · rename_i heq
      split
      · rename_i heq'
        rw [hsettled, heq'] at heq
        cases heq
      · rename_i heq'
        have hsame := hsettled
        rw [heq, heq'] at hsame
        cases hsame
        rfl
  · rfl

section Records

variable {k : Kind} {entries : Mapping} {kind : Value}

/-- A record and a direct call come to the same. -/
theorem ofRecord_eq_make (hdocument : (Value.dict entries).isDocument = true)
    (hkind : entries.get? (.text "kind") = some kind) (hfind : findKind kind = .ok k)
    (hkeys : ∀ a ∈ entries, a.1 ≠ .text "kind" → ∃ name, fieldName? k a.1 = some name)
    (hapart : Apart k entries) (hvalid : Valid k entries) :
    ofRecord (.dict entries) = (make k (arguments k entries)).mapError .make := by
  have hk := registered_of_findKind hfind
  obtain ⟨m, attributes, hnamed, -, hchecked, heq⟩ := ofRecord_valid hdocument hkind hfind hkeys
    hvalid.1 ((issues_eq_nil_iff hdocument).mpr hvalid.2)
  rw [heq]
  congr 1
  -- what the checks left and what the call is given settle alike, field by field
  have hfields : ∀ f ∈ k.fields, ∃ w, given attributes f = some w ∧
      ∃ v, given (arguments k entries) f = some v ∧ settle f v = settle f w := by
    intro f hf
    obtain ⟨w, hlookup, hpart⟩ := Record.lookup_checkFields hchecked (Kind.fieldNames_nodup k hk) hf
    refine ⟨w, by rw [given, hlookup, Option.some_or], ?_⟩
    rw [given, lookup_arguments hk hapart hf]
    rcases Record.part_ok_cases hpart with ⟨v, hv, hcheck⟩ | ⟨hnone, hdefault⟩
    · rw [get?_named_erase hk hnamed] at hv
      rw [hv]
      exact ⟨_, rfl, settle_converted (Kind.isShallow_fields k hk f hf) hcheck⟩
    · rw [get?_named_erase hk hnamed] at hnone
      rw [hnone]
      exact ⟨w, hdefault, rfl⟩
  refine make_congr (fun f hf => ?_) fun f hf => ?_
  · obtain ⟨w, hw, v, hv, -⟩ := hfields f hf
    rw [hw, hv]
    rfl
  · obtain ⟨w, hw, v, hv, hsettle⟩ := hfields f hf
    rw [hw, hv]
    exact hsettle.symm

theorem get_of_null (hk : k ∈ Kind.registered) (hapart : Apart k entries) {e : Event}
    (h : make k (arguments k entries) = .ok e) {f : Field} (hf : f ∈ k.fields) {t : FieldType}
    (ht : f.type = .optional t) (hnull : supplied? k entries f.name = some .none) :
    e.get f.name = f.default.getD .none := by
  obtain ⟨rfl, hsettled⟩ := make_ok h
  obtain ⟨w, hw, hlookup⟩ := lookup_settleAll hsettled (Kind.fieldNames_nodup _ hk) hf
  have hgiven : given (arguments e.kind entries) f = some .none := by
    rw [given, lookup_arguments hk hapart hf, hnull, ht]
    rfl
  have hsettle : settle f .none = .ok (f.default.getD .none) := by
    unfold settle
    rw [ht]
    rfl
  rw [hgiven, Option.getD_some, hsettle] at hw
  rw [Event.get, hlookup]
  exact (Except.ok.inj hw).symm

/-- A record whose keys are known and stand apart, and whose values are valid one by one, ends as the
direct call with their converted values does: with the same event, or with the same error, which is
always about sides that are not aligned. The event has tuples for all sequences, and for those in
sequences; and it has a display line. -/
theorem ofRecord_direct (hdocument : (Value.dict entries).isDocument = true)
    (hkind : entries.get? (.text "kind") = some kind) (hfind : findKind kind = .ok k)
    (hkeys : ∀ a ∈ entries, a.1 ≠ .text "kind" → ∃ name, fieldName? k a.1 = some name)
    (hapart : Apart k entries) (hvalid : Valid k entries) :
    ofRecord (.dict entries) = (make k (arguments k entries)).mapError .make ∧
    (∀ e, make k (arguments k entries) = .ok e →
      (∀ f ∈ k.fields, f.type.Admits (e.get f.name)) ∧
      (k = .portScan → supplied? k entries "resp_ports" = some .none →
        e.get "resp_ports" = .tuple []) ∧
      ∃ line, e.displayLine = .ok line) ∧
    ∀ cause, make k (arguments k entries) = .error cause →
      ∃ lengths, cause = .side (.misaligned lengths) := by
  have hk := registered_of_findKind hfind
  have heq := ofRecord_eq_make hdocument hkind hfind hkeys hapart hvalid
  refine ⟨heq, fun e he => ?_, fun cause hcause => ?_⟩
  · rw [he] at heq
    have hloaded := loaded_of_ofRecord heq
    obtain ⟨rfl, -⟩ := make_ok he
    obtain ⟨text, -, hpairs⟩ := exists_texts hloaded
    refine ⟨hloaded.admits, fun hscan hnull => ?_,
      _, displayLine_of_pairsText (pairsText_of_pairs hpairs)⟩
    let ports : Field :=
      { name := "resp_ports", type := .optional (.sequence .integer), default := some (.tuple []) }
    have hports : ports ∈ e.kind.fields := by
      rw [hscan]
      exact List.mem_of_getElem? (show Kind.portScan.fields[10]? = some ports from rfl)
    exact get_of_null hk hapart he hports rfl hnull
  · -- a valid record is refused over its sides at most
    obtain ⟨s, hsides⟩ := Kind.exists_sides hk
    obtain ⟨e, he⟩ := ofRecord_valid_eq hdocument hkind hfind hsides hkeys hvalid.1 hvalid.2
    rw [heq, hcause, error_mapError] at he
    split at he
    · split at he
      · cases he
      · cases he
        exact ⟨_, rfl⟩
    · cases he
      exact ⟨_, rfl⟩

end Records

def nullScan : Mapping :=
  [(.text "kind", .text "PortScan"), (.text "time", .int 0), (.text "sensor", .text "s"),
    (.text "proto", .int 6), (.text "confidence", .int 1), (.text "orig_addr", .text "10.0.0.1"),
    (.text "resp_addr", .text "fe80::1%eth0"), (.text "resp_ports", .none),
    (.text "start_time", .int 0), (.text "end_time", .text "2024-01-02T03:04:05Z"),
    (.text "triage_scores",
      .list [Mapping.record [("policy_id", .int 1), ("score", .int 2)]])]

theorem direct_nullScan :
    (Value.dict nullScan).isDocument = true ∧
      nullScan.get? (.text "kind") = some (.text "PortScan") ∧
      findKind (.text "PortScan") = .ok .portScan ∧
      (∀ a ∈ nullScan, a.1 ≠ .text "kind" → ∃ name, fieldName? .portScan a.1 = some name) ∧
      Apart .portScan nullScan ∧ Valid .portScan nullScan ∧
      ∃ e, make .portScan (arguments .portScan nullScan) = .ok e ∧
        ofRecord (.dict nullScan) = .ok e ∧ e.get "resp_ports" = .tuple [] := by
  have hdocument : (Value.dict nullScan).isDocument = true := by decide
  have hkind : nullScan.get? (.text "kind") = some (.text "PortScan") := rfl
  have hfind : findKind (.text "PortScan") = .ok .portScan := rfl
  have hkeys : ∀ a ∈ nullScan, a.1 ≠ .text "kind" →
      ∃ name, fieldName? .portScan a.1 = some name := fieldNames_of_all (by decide)
  have hapart : Apart .portScan nullScan :=
    (apart_iff (registered_of_findKind hfind) hdocument).mpr fun htwo => by cases htwo.1
  have hissues : (issues .portScan nullScan).isEmpty = true := by decide
  have hvalid : Valid .portScan nullScan :=
    ⟨by decide, (issues_eq_nil_iff hdocument).mp (List.isEmpty_iff.mp hissues)⟩
  obtain ⟨heq, hmade, -⟩ := ofRecord_direct hdocument hkind hfind hkeys hapart hvalid
  have hsome : (ofRecord (.dict nullScan)).toOption.isSome = true := by decide +kernel
  obtain ⟨e, he⟩ := exists_of_isSome hsome
  have hmake := mapError_ok.mp (heq.symm.trans he)
  have hnull : supplied? .portScan nullScan "resp_ports" = some .none := rfl
  exact ⟨hdocument, hkind, hfind, hkeys, hapart, hvalid, e, hmake, he, (hmade e hmake).2.1 rfl hnull⟩

end Event

end Detection
