import Detection.Proofs.Line.OneLine

/-! # The names of an event's pairs

A kind fixes the names and their order. No value has a say in them, the shape of a side included.
-/

namespace Detection

def SideShape.names (shape : SideShape) (label : String) : List String :=
  match shape with
  | .single => [label ++ "_addr", label ++ "_port", label ++ "_country_code"]
  | .multiPort => [label ++ "_addr", label ++ "_ports", label ++ "_country_code"]
  | .group => [label ++ "_addrs", label ++ "_ports", label ++ "_country_codes"]

def Kind.pairNames (k : Kind) (s : Sides) : List String :=
  ["category", "sensor"] ++ s.originator.names "orig" ++ s.responder.names "resp" ++ ["proto"] ++
    k.layout.map Slot.label ++ ["confidence", "triage_scores"]

theorem SideShape.labels_eq (shape : SideShape) {label : String}
    (hlabel : label ∈ ["orig", "resp"]) :
    (shape.fields label).map Field.label = shape.names label := by
  have hplain := Event.sideLabels_plain shape label hlabel
  rw [List.map_congr_left hplain]
  cases shape <;> rfl

theorem Kind.layoutLabels_eq {k : Kind} (hk : k ∈ registered) :
    k.layout.map Slot.label = k.details.map Field.label := by
  rw [layout_eq k hk, List.map_map]
  rfl

theorem Kind.shownLabels_eq {k : Kind} (hk : k ∈ registered) {s : Sides} (hs : k.sides? = some s) :
    k.shownFields.map Field.label = k.pairNames s := by
  have horig : (s.originator.fields "orig").map Field.label = s.originator.names "orig" :=
    s.originator.labels_eq (by simp)
  have hresp : (s.responder.fields "resp").map Field.label = s.responder.names "resp" :=
    s.responder.labels_eq (by simp)
  rw [Event.shownFields_eq hs, pairNames, ← horig, ← hresp, layoutLabels_eq hk]
  simp only [List.map_append, List.append_assoc]
  rfl

namespace Event

/-- The pairs of a record's event are always there, for either form of its line, with the names
of its kind in canonical order and none of them twice. -/
theorem names_of_ofRecord {record : Value} {e : Event} (h : ofRecord record = .ok e) :
    ∃ s ps, e.kind.sides? = some s ∧ e.pairs = .ok ps ∧
      ps.map Prod.fst = e.kind.pairNames s ∧ (e.kind.pairNames s).Nodup ∧
      (∃ line, e.displayLine = .ok line) ∧
      ∀ header : Syslog.Header, ∃ line, e.syslogLine header = .ok line := by
  have hloaded := loaded_of_ofRecord h
  obtain ⟨s, hs⟩ := Kind.exists_sides hloaded.registered
  obtain ⟨text, -, hpairs⟩ := exists_texts hloaded
  have hnames := Kind.shownLabels_eq hloaded.registered hs
  have htext : e.pairsText = .ok (Detection.pairsText (labelled text e.kind.shownFields)) := by
    rw [pairsText, hpairs]
    rfl
  refine ⟨s, _, hs, hpairs, ?_, ?_, ⟨_, displayLine_of_pairsText htext⟩,
    fun header => ⟨_, syslogLine_of_pairsText htext header⟩⟩
  · rw [map_fst_labelled, hnames]
  · rw [← hnames]
    exact Kind.shownLabels_nodup _ hloaded.registered

theorem names_portScan :
    ∃ e, ofRecord (portScan "fe80::1%eth0") = .ok e ∧
      ∃ s ps, e.kind.sides? = some s ∧ e.pairs = .ok ps ∧
        ps.map Prod.fst = e.kind.pairNames s ∧ (e.kind.pairNames s).Nodup ∧
        (∃ line, e.displayLine = .ok line) ∧
        ∀ header : Syslog.Header, ∃ line, e.syslogLine header = .ok line := by
  obtain ⟨e, he⟩ := exists_portScan
  exact ⟨e, he, names_of_ofRecord he⟩

end Event

end Detection
