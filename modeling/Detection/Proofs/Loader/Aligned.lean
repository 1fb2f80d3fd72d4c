import Detection.Proofs.Line.OneLine
import Detection.Proofs.Loader.Issues

/-! # Records with sides of many hosts

The sequences that describe the hosts of a side must have one length. This is looked at once every
field has what it takes, and the originator's side comes first. An event that comes about shows its
hosts one by one.
-/

namespace Detection.Event

open FieldType (Admits)

/-! ## Lengths -/

def suppliedCount (k : Kind) (entries : Mapping) (name : String) : Nat :=
  match supplied? k entries name with
  | some (.list items) => items.length
  | _ => 0

theorem aligned_group {size : String → Nat} {label : String} :
    Aligned (sideLengths size .group label) ↔
      size (label ++ "_addrs") = size (label ++ "_ports") ∧
        size (label ++ "_addrs") = size (label ++ "_country_codes") := by
  simp only [Aligned, sideLengths, List.forall_mem_cons, List.not_mem_nil, false_implies,
    implies_true, and_true, true_and]
  omega

section Lengths

variable {k : Kind} {entries m : Mapping} {attributes : List (String × Value)} {e : Event}
  (hk : k ∈ Kind.registered) (hnamed : named k [] (entries.erase (.text "kind")) = .ok m)
  (hchecked : Record.checkFields m k.fields = .ok attributes)
  (hget : ∀ f ∈ k.fields, ∀ v, attributes.lookup f.name = some v → settle f v = .ok (e.get f.name))

include hk hnamed hchecked hget

theorem itemCount_eq {t : FieldType} {name : String} (ht : t ≠ .textPair)
    (hf : Field.required (.sequence t) name ∈ k.fields) :
    itemCount e.get name = suppliedCount k entries name := by
  obtain ⟨v, hlookup, hpart⟩ := Record.lookup_checkFields hchecked (Kind.fieldNames_nodup k hk) hf
  have hsettle := hget _ hf v hlookup
  simp only [Field.required, Record.part, get?_named_erase hk hnamed] at hpart hsettle
  cases hsupplied : supplied? k entries name with
  | none =>
    rw [hsupplied] at hpart
    cases Record.under_ok.mp hpart
  | some x =>
    simp only [hsupplied, Record.under_ok, Record.check] at hpart
    split at hpart
    · rename_i items
      obtain ⟨vs, hall, rfl⟩ := map_ok.mp hpart
      have hlength := congrArg List.length (Record.allFrom_ok.mp hall)
      simp only [List.length_map] at hlength
      have hsettled := settled_of_ne (f := .required (.sequence t) name) (v := .tuple vs)
        (by simpa [Field.required] using ht) (by simp) (by simp)
      have hattribute : Value.tuple vs = e.get name := Except.ok.inj (hsettled.symm.trans hsettle)
      simp only [itemCount, suppliedCount, hsupplied, ← hattribute, Value.items?, Option.getD_some,
        hlength]
    · cases hpart

theorem sideLengths_eq {shape : SideShape} {label : String}
    (hside : ∀ f ∈ shape.fields label, f ∈ k.fields) :
    sideLengths (itemCount e.get) shape label =
      sideLengths (suppliedCount k entries) shape label := by
  cases shape with
  | single => rfl
  | multiPort => rfl
  | group =>
    simp only [SideShape.fields, List.forall_mem_cons] at hside
    simp only [sideLengths, itemCount_eq hk hnamed hchecked hget (by simp) hside.1,
      itemCount_eq hk hnamed hchecked hget (by simp) hside.2.1,
      itemCount_eq hk hnamed hchecked hget (by simp) hside.2.2.1]

end Lengths

theorem ofRecord_valid_eq {k : Kind} {s : Sides} {entries : Mapping} {kind : Value}
    (hdocument : (Value.dict entries).isDocument = true)
    (hkind : entries.get? (.text "kind") = some kind) (hfind : findKind kind = .ok k)
    (hsides : k.sides? = some s)
    (hkeys : ∀ a ∈ entries, a.1 ≠ .text "kind" → ∃ name, fieldName? k a.1 = some name)
    (hfits : (Value.dict entries).fits .record 0 = true)
    (hvalid : ∀ f ∈ k.fields, ¬ f.Refuses (supplied? k entries f.name)) :
    ∃ e : Event, ofRecord (.dict entries) =
      if Aligned (sideLengths (suppliedCount k entries) s.originator "orig") then
        if Aligned (sideLengths (suppliedCount k entries) s.responder "resp") then .ok e
        else .error (.make (.side (.misaligned
          (sideLengths (suppliedCount k entries) s.responder "resp"))))
      else .error (.make (.side (.misaligned
        (sideLengths (suppliedCount k entries) s.originator "orig")))) := by
  have hk := registered_of_findKind hfind
  obtain ⟨m, attributes, hnamed, hm, hchecked, heq⟩ :=
    ofRecord_valid hdocument hkind hfind hkeys hfits ((issues_eq_nil_iff hdocument).mpr hvalid)
  obtain ⟨e, rfl, hmake, hget⟩ := make_eq hk (admits_of_checkFields hk hm hchecked)
  have hsettle := fun f hf => (hget f hf).2.2
  -- the lengths that the event has are those that were supplied
  have hlengths {shape : SideShape} {label : String}
      (h : ∀ f ∈ shape.fields label, f ∈ s.fields) :=
    sideLengths_eq hk hnamed hchecked hsettle fun f hf => Kind.sideFields_subset hsides (h f hf)
  refine ⟨e, ?_⟩
  rw [heq, hmake, checkSides_eq hsides fun f hf => (hget f hf).1,
    hlengths fun f hf => List.mem_append_left _ hf, hlengths fun f hf => List.mem_append_right _ hf]
  split
  · split <;> rfl
  · rfl

/-! ## Hosts -/

structure Host where
  addr : Address
  port : Int
  code : Value

/-- These are the hosts of a side, and the pairs show them one by one in three lists. -/
structure ShowsHosts (e : Event) (label : String) (ps : List Pair) (hosts : List Host) : Prop where
  addrs : e.get (label ++ "_addrs") = .tuple (hosts.map fun h => .address h.addr)
  ports : e.get (label ++ "_ports") = .tuple (hosts.map fun h => .int h.port)
  codes : e.get (label ++ "_country_codes") = .tuple (hosts.map Host.code)
  shown_addrs : (label ++ "_addrs", bracketed (hosts.map fun h => h.addr.text)) ∈ ps
  shown_ports : (label ++ "_ports", bracketed (hosts.map fun h => toString h.port)) ∈ ps
  shown_codes : (label ++ "_country_codes",
    bracketed (hosts.map fun h => Text.bare (Country.decode h.code))) ∈ ps

theorem integers_of_admits {v : Value} (h : Admits (.sequence .integer) v) :
    ∃ ns : List Int, v = .tuple (ns.map .int) := by
  obtain ⟨vs, rfl, hvs, -⟩ := items?_of_admits h
  suffices hns : ∃ ns : List Int, vs = ns.map .int by
    obtain ⟨ns, rfl⟩ := hns
    exact ⟨ns, rfl⟩
  induction vs with
  | nil => exact ⟨[], rfl⟩
  | cons v vs ih =>
    obtain ⟨hv, hrest⟩ := List.forall_mem_cons.mp hvs
    obtain ⟨ns, rfl⟩ := ih (.sequence hrest) hrest
    cases hv with
    | integer n => exact ⟨n :: ns, rfl⟩

theorem exists_hosts {as : List Address} {ps : List Int} {cs : List Value}
    (hports : as.length = ps.length) (hcodes : as.length = cs.length) :
    ∃ hosts : List Host, hosts.map Host.addr = as ∧ hosts.map Host.port = ps ∧
      hosts.map Host.code = cs := by
  induction as generalizing ps cs with
  | nil =>
    cases ps with
    | cons p ps => cases hports
    | nil =>
      cases cs with
      | cons c cs => cases hcodes
      | nil => exact ⟨[], rfl, rfl, rfl⟩
  | cons a as ih =>
    cases ps with
    | nil => cases hports
    | cons p ps =>
      cases cs with
      | nil => cases hcodes
      | cons c cs =>
        obtain ⟨hosts, rfl, rfl, rfl⟩ := ih (Nat.succ.inj hports) (Nat.succ.inj hcodes)
        exact ⟨⟨a, p, c⟩ :: hosts, rfl, rfl, rfl⟩

theorem shownText_sequence {t : FieldType} (h : t = .address ∨ t = .integer) (name : String)
    (vs : List Value) :
    shownText (.required (.sequence t) name) (.tuple vs) =
      .ok (bracketed (vs.map Value.rendered)) := by
  rw [← Value.renderedAll_eq_map]
  rcases h with rfl | rfl
  · rfl
  · rfl

theorem showsHosts_of_loaded {e : Event} (h : e.Loaded) {label : String}
    (haligned : Aligned (sideLengths (itemCount e.get) .group label))
    (hlabel : label ∈ ["orig", "resp"])
    (hshown : ∀ f ∈ SideShape.group.fields label, f ∈ e.kind.shownFields)
    {text : Field → String}
    (htext : ∀ f ∈ e.kind.shownFields, shownText f (e.get f.name) = .ok (text f)) :
    ∃ hosts, ShowsHosts e label (labelled text e.kind.shownFields) hosts := by
  have hplain := sideLabels_plain .group label hlabel
  have hadmits := fun f hf => h.admits f (Kind.mem_fields_iff.mpr (.inr (hshown f hf)))
  have hpair (f : Field) (hf : f ∈ SideShape.group.fields label) {s : String}
      (hs : shownText f (e.get f.name) = .ok s) :
      (f.name, s) ∈ labelled text e.kind.shownFields := by
    obtain rfl := Except.ok.inj ((htext f (hshown f hf)).symm.trans hs)
    exact List.mem_map.mpr ⟨f, hshown f hf, by rw [hplain f hf]⟩
  simp only [SideShape.fields, List.forall_mem_cons, Field.required] at hadmits hpair
  obtain ⟨as, has⟩ := addresses_of_admits hadmits.1
  obtain ⟨ns, hns⟩ := integers_of_admits hadmits.2.1
  obtain ⟨cs, hcs, -⟩ := items?_of_admits hadmits.2.2.1
  -- the three sequences have one length, so they come apart into hosts
  simp only [aligned_group, itemCount, has, hns, hcs, Value.items?, Option.getD_some,
    List.length_map] at haligned
  obtain ⟨hosts, rfl, rfl, rfl⟩ := exists_hosts haligned.1 haligned.2
  rw [List.map_map] at has hns
  refine ⟨hosts, has, hns, hcs, hpair.1 ?_, hpair.2.1 ?_, hpair.2.2.1 ?_⟩
  · rw [has]
    refine (shownText_sequence (.inl rfl) _ _).trans ?_
    rw [List.map_map]
    rfl
  · rw [hns]
    refine (shownText_sequence (.inr rfl) _ _).trans ?_
    rw [List.map_map]
    rfl
  · rw [hcs]
    show Except.ok (bracketed (((hosts.map Host.code).map Country.decode).map Text.bare)) = _
    rw [List.map_map, List.map_map]
    rfl

/-! ## How a record of many hosts ends -/

/-- A reader takes the record back, and every field has what it takes. -/
def Valid (k : Kind) (entries : Mapping) : Prop :=
  (Value.dict entries).fits .record 0 = true ∧
    ∀ f ∈ k.fields, ¬ f.Refuses (supplied? k entries f.name)

/-- A record of a kind with many hosts on a side is refused if it is not valid, whatever the lengths
of its sequences. If it is, it becomes an event unless the sequences of a side differ in length, and
then the error has the originator's lengths where these differ. Each side of many hosts that an event
has is shown as three lists, host by host. -/
theorem ofRecord_manyHosts {k : Kind} {s : Sides} {entries : Mapping} {kind : Value}
    (hdocument : (Value.dict entries).isDocument = true)
    (hkind : entries.get? (.text "kind") = some kind) (hfind : findKind kind = .ok k)
    (hsides : k.sides? = some s) (hgroup : s.originator = .group ∨ s.responder = .group)
    (hkeys : ∀ a ∈ entries, a.1 ≠ .text "kind" → ∃ name, fieldName? k a.1 = some name) :
    (Valid k entries →
      (¬ Aligned (sideLengths (suppliedCount k entries) s.originator "orig") →
        ofRecord (.dict entries) = .error (.make (.side (.misaligned
          (sideLengths (suppliedCount k entries) s.originator "orig"))))) ∧
      (Aligned (sideLengths (suppliedCount k entries) s.originator "orig") →
        ¬ Aligned (sideLengths (suppliedCount k entries) s.responder "resp") →
        ofRecord (.dict entries) = .error (.make (.side (.misaligned
          (sideLengths (suppliedCount k entries) s.responder "resp"))))) ∧
      (Aligned (sideLengths (suppliedCount k entries) s.originator "orig") →
        Aligned (sideLengths (suppliedCount k entries) s.responder "resp") →
        ∃ e, ofRecord (.dict entries) = .ok e)) ∧
    (¬ Valid k entries → ∃ err, ofRecord (.dict entries) = .error err ∧ err.isRefusal = true) ∧
    ∀ e, ofRecord (.dict entries) = .ok e →
      ∃ ps, e.pairs = .ok ps ∧ (∃ line, e.displayLine = .ok line) ∧
        (∀ header, ∃ line, e.syslogLine header = .ok line) ∧
        (s.originator = .group → ∃ hosts, ShowsHosts e "orig" ps hosts) ∧
        (s.responder = .group → ∃ hosts, ShowsHosts e "resp" ps hosts) := by
  have hk := registered_of_findKind hfind
  refine ⟨?_, ?_, ?_⟩
  · rintro ⟨hfits, hvalid⟩
    obtain ⟨e, he⟩ := ofRecord_valid_eq hdocument hkind hfind hsides hkeys hfits hvalid
    rw [he]
    refine ⟨fun ho => ?_, fun ho hr => ?_, fun ho hr => ⟨e, ?_⟩⟩
    · rw [if_neg ho]
    · rw [if_pos ho, if_neg hr]
    · rw [if_pos ho, if_pos hr]
  · intro hinvalid
    by_cases hfits : (Value.dict entries).fits .record 0 = true
    · have hissues : issues k entries ≠ [] := fun hnone =>
        hinvalid ⟨hfits, (issues_eq_nil_iff hdocument).mp hnone⟩
      exact ⟨_, ofRecord_invalid hdocument hkind hfind hkeys hfits hissues, rfl⟩
    · -- the one kind with two keys for an attribute has single hosts
      have hapart : Apart k entries := by
        apply (apart_iff hk hdocument).mpr
        rintro ⟨rfl, -⟩
        cases hsides
        simp at hgroup
      exact ofRecord_unfit hdocument hkind hfind hkeys hapart hfits
  · intro e he
    have hloaded := loaded_of_ofRecord he
    obtain ⟨-, ⟨kind', hkind', -, hfind'⟩, -⟩ := entries_of_ofRecord hdocument he
    obtain rfl : kind' = kind := Option.some.inj (hkind'.symm.trans hkind)
    obtain rfl : e.kind = k := Except.ok.inj (hfind'.symm.trans hfind)
    obtain ⟨text, htext, hpairs⟩ := exists_texts hloaded
    have hline := pairsText_of_pairs hpairs
    -- an event that was made has aligned sides, so these come apart into hosts
    obtain ⟨ho, hr⟩ := hloaded.aligned hsides
    have hshown := Kind.sideFields_shown hsides
    refine ⟨_, hpairs, ⟨_, displayLine_of_pairsText hline⟩,
      fun header => ⟨_, syslogLine_of_pairsText hline header⟩, fun hmany => ?_, fun hmany => ?_⟩
    · rw [Sides.fields, hmany] at hshown
      rw [hmany] at ho
      exact showsHosts_of_loaded hloaded ho (by simp)
        (fun f hf => hshown f (List.mem_append_left _ hf)) htext
    · rw [Sides.fields, hmany] at hshown
      rw [hmany] at hr
      exact showsHosts_of_loaded hloaded hr (by simp)
        (fun f hf => hshown f (List.mem_append_right _ hf)) htext

def hostScan : Mapping :=
  [(.text "kind", .text "MultiHostPortScan"), (.text "time", .int 0), (.text "sensor", .text "s"),
    (.text "proto", .int 6), (.text "confidence", .int 1),
    (.text "orig_addrs", .list [.text "10.0.0.1", .text "10.0.0.2"]),
    (.text "orig_ports", .list [.int 1]), (.text "orig_country_codes", .list [.none, .text "KR"]),
    (.text "resp_addrs", .list [.text "10.0.0.3"]),
    (.text "resp_ports", .list [.int 22, .int 80]), (.text "resp_country_codes", .list [.none]),
    (.text "start_time", .int 0), (.text "end_time", .int 0)]

theorem misaligned_hostScan :
    (Value.dict hostScan).isDocument = true ∧
      hostScan.get? (.text "kind") = some (.text "MultiHostPortScan") ∧
      findKind (.text "MultiHostPortScan") = .ok .multiHostPortScan ∧
      Kind.multiHostPortScan.sides? = some ⟨.group, .group⟩ ∧
      (∀ a ∈ hostScan, a.1 ≠ .text "kind" →
        ∃ name, fieldName? .multiHostPortScan a.1 = some name) ∧
      Valid .multiHostPortScan hostScan ∧
      ofRecord (.dict hostScan) = .error (.make (.side (.misaligned
        [("addrs", 2), ("ports", 1), ("country_codes", 2)]))) := by
  have hdocument : (Value.dict hostScan).isDocument = true := by decide +kernel
  have hkind : hostScan.get? (.text "kind") = some (.text "MultiHostPortScan") := rfl
  have hfind : findKind (.text "MultiHostPortScan") = .ok .multiHostPortScan := rfl
  have hkeys : ∀ a ∈ hostScan, a.1 ≠ .text "kind" →
      ∃ name, fieldName? .multiHostPortScan a.1 = some name := fieldNames_of_all (by decide +kernel)
  have hissues : (issues .multiHostPortScan hostScan).isEmpty = true := by decide +kernel
  have hvalid : Valid .multiHostPortScan hostScan :=
    ⟨by decide +kernel, (issues_eq_nil_iff hdocument).mp (List.isEmpty_iff.mp hissues)⟩
  refine ⟨hdocument, hkind, hfind, rfl, hkeys, hvalid, ?_⟩
  have hends := (ofRecord_manyHosts hdocument hkind hfind rfl (.inl rfl) hkeys).1 hvalid
  have hlengths : sideLengths (suppliedCount .multiHostPortScan hostScan) .group "orig" =
      [("addrs", 2), ("ports", 1), ("country_codes", 2)] := by decide +kernel
  rw [← hlengths]
  exact hends.1 (by decide +kernel)

end Detection.Event
