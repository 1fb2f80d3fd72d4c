import Detection.Program
import Detection.Proofs.Line.OneLine
import Detection.Proofs.Time.Internet

/-! # The times of an event

Each of them but the event's own is shown in a pair, and the event's own in a header. A time keeps
the offset it was given, so these texts are date-times of RFC 3339 where the records gave offsets
without seconds.
-/

namespace Detection

open Internet (IsDateTime)

theorem Kind.labels_nodup : ∀ k ∈ registered, (k.fields.map Field.label).Nodup := by
  decide +kernel

theorem Syslog.timestampText_of_check {raw : RawHeader} {header : Header}
    (h : Header.check raw = .ok header) {t : Timestamp} (htime : raw.timestamp = .time t) :
    header.timestampText = t.anchored.text := by
  have htimestamp := (check_ok_iff.mp h).timestamp
  rw [htime] at htimestamp
  rw [Header.timestampText, ← Except.ok.inj htimestamp]

namespace Event

/-- The text is shown for a field of the event: in its pair, or in a header that is given the event's
own time. -/
inductive ShownFor (e : Event) (f : Field) : String → Prop where
  | pair {ps : List Pair} {s : String} : e.pairs = .ok ps → (f.label, s) ∈ ps → ShownFor e f s
  | header {raw : Syslog.RawHeader} {header : Syslog.Header} : f.name = "time" →
      raw.timestamp = e.get "time" → Syslog.Header.check raw = .ok header →
      ShownFor e f header.timestampText

theorem shownFor_programHeader {m : Machine} {s : Settings} {r : CommandLine.Request} {e : Event}
    {header : Syslog.Header} (h : Program.header m s r e = .ok header) :
    e.ShownFor (.time "time") header.timestampText := by
  unfold Program.header at h
  simp only [pure_bind] at h
  split at h
  · obtain ⟨severity, -, h⟩ := bind_ok.mp h
    exact .header rfl rfl (mapError_ok.mp h)
  · obtain ⟨facility, -, h⟩ := bind_ok.mp h
    obtain ⟨severity, -, h⟩ := bind_ok.mp h
    exact .header rfl rfl (mapError_ok.mp h)

theorem shownText_time {f : Field} (htype : f.type = .time) (t : Timestamp) :
    shownText f (.time t) = .ok t.anchored.text := by
  have hspecial : f.type.isSpecial = false := by rw [htype]; rfl
  have hshown : f.shown = .plain := by rw [Field.shown, htype]
  exact shownText_plain hspecial hshown _

theorem text_of_mem_labelled {k : Kind} (hk : k ∈ Kind.registered) {text : Field → String}
    {f : Field} (hf : f ∈ k.fields) {s : String}
    (h : (f.label, s) ∈ labelled text k.shownFields) : f ∈ k.shownFields ∧ s = text f := by
  obtain ⟨g, hg, heq⟩ := List.mem_map.mp h
  rw [Prod.mk.injEq] at heq
  have hfield : g = f := List.inj_on_of_nodup_map (Kind.labels_nodup k hk)
    (Kind.mem_fields_iff.mpr (.inr hg)) hf heq.1
  exact ⟨hfield ▸ hg, hfield ▸ heq.2.symm⟩

theorem shownFor_iff {e : Event} (h : e.Loaded) {f : Field} (hf : f ∈ e.kind.fields)
    (htype : f.type = .time) {t : Timestamp} (ht : e.get f.name = .time t) (s : String) :
    e.ShownFor f s ↔ s = t.anchored.text := by
  obtain ⟨text, htext, hpairs⟩ := exists_texts h
  have htime : f ∈ e.kind.shownFields → text f = t.anchored.text := by
    intro hshown
    have hsame := htext f hshown
    rw [ht, shownText_time htype] at hsame
    exact (Except.ok.inj hsame).symm
  constructor
  · intro hshown
    cases hshown with
    | pair hps hmem =>
      rw [hpairs] at hps
      cases hps
      obtain ⟨hshown, rfl⟩ := text_of_mem_labelled h.registered hf hmem
      exact htime hshown
    | header hname hraw hcheck =>
      rw [hname] at ht
      exact Syslog.timestampText_of_check hcheck (hraw.trans ht)
  · rintro rfl
    -- the time itself stands in the header, all others in pairs
    rcases Kind.mem_fields_iff.mp hf with rfl | hshown
    · obtain ⟨header, hcheck⟩ : ∃ header,
          Syslog.Header.check { timestamp := .time t } = .ok header := ⟨_, rfl⟩
      rw [← Syslog.timestampText_of_check hcheck rfl]
      exact .header rfl ht.symm hcheck
    · refine .pair hpairs (List.mem_map.mpr ⟨f, hshown, ?_⟩)
      rw [htime hshown]

/-- Each time of a loaded event is shown as one text, with the offset it was read with. The text is
a date-time of RFC 3339 if and only if the offset is a whole number of minutes. -/
theorem dateTimes_iff {record : Value} {e : Event} (h : ofRecord record = .ok e) :
    ∀ f ∈ e.kind.fields, f.type = .time → ∃ t, e.get f.name = .time t ∧
      (∀ s, e.ShownFor f s ↔ s = t.anchored.text) ∧
      (IsDateTime t.anchored.text.toList ↔ ∀ o ∈ t.offset, 60000000 ∣ o.micros) := by
  intro f hf htype
  have hloaded := loaded_of_ofRecord h
  have hadmits := hloaded.admits f hf
  rw [htype] at hadmits
  obtain ⟨t, ht⟩ : ∃ t, e.get f.name = .time t := by
    generalize e.get f.name = v at hadmits
    cases hadmits with
    | time t => exact ⟨t, rfl⟩
  exact ⟨t, ht, shownFor_iff hloaded hf htype ht, Internet.isDateTime_anchored_iff t⟩

def begunScan (start : String) : Value :=
  Mapping.record
    [("kind", .text "PortScan"), ("time", .int 0), ("sensor", .text "s"), ("proto", .int 6),
      ("confidence", .int 1), ("orig_addr", .text "10.0.0.2"), ("resp_addr", .text "10.0.0.1"),
      ("start_time", .text start), ("end_time", .int 0)]

theorem dateTimes_begunScan :
    ∃ e, ofRecord (begunScan "2024-01-01T00:00:00.5-09:30") = .ok e ∧
      ∀ f ∈ e.kind.fields, f.type = .time → ∃ t, e.get f.name = .time t ∧
        (∀ s, e.ShownFor f s ↔ s = t.anchored.text) ∧
        (IsDateTime t.anchored.text.toList ↔ ∀ o ∈ t.offset, 60000000 ∣ o.micros) := by
  obtain ⟨e, he⟩ := exists_of_isSome
    (by decide +kernel : (ofRecord (begunScan "2024-01-01T00:00:00.5-09:30")).toOption.isSome = true)
  exact ⟨e, he, dateTimes_iff he⟩

/-- An offset with seconds is read and shown, and then the text is no date-time. -/
theorem begunScan_offsetSeconds :
    ∃ e, ofRecord (begunScan "2024-01-01T00:00:00+01:00:30") = .ok e ∧
      .time "start_time" ∈ e.kind.fields ∧
      ∃ s, e.ShownFor (.time "start_time") s ∧ ¬ IsDateTime s.toList := by
  have hshown : (do
      let e ← (ofRecord (begunScan "2024-01-01T00:00:00+01:00:30")).toOption
      let ps ← e.pairs.toOption
      pure (e.kind, ps.contains ("start_time", "2024-01-01T00:00:00+01:00:30"))) =
        some (.portScan, true) := by decide +kernel
  simp only [Option.bind_eq_bind, Option.bind_eq_some_iff, toOption_eq_some, Option.pure_def,
    Option.some.injEq, Prod.mk.injEq, List.contains_iff_mem] at hshown
  obtain ⟨e, he, ps, hps, hkind, hmem⟩ := hshown
  have hchars : "2024-01-01T00:00:00+01:00:30".toList =
      "2024-01-01T00:00:00+01".toList ++ ':' :: "00:30".toList := rfl
  refine ⟨e, he, ?_, _, .pair hps hmem, fun hdate => ?_⟩
  · rw [hkind]
    exact Kind.mem_fields_iff.mpr (.inr (by simp [Kind.shownFields, Kind.laterFields, Kind.details,
      Fields.period]))
  · rw [hchars] at hdate
    have hsign := Internet.sign_of_isDateTime (by decide) hdate
    revert hsign
    decide

end Event

end Detection
