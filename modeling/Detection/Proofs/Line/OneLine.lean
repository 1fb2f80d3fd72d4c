import Detection.Proofs.Line.Texts
import Detection.Proofs.Loader.Outcome

/-! # Lines that stay one line

The display form of an event and its syslog form hold the same pairs. Only the syslog form is escaped
as a whole, so the two agree as long as there is nothing to escape.
-/

namespace Detection

theorem unbroken_joinTexts {sep : String} (hsep : Unbroken sep.toList) {texts : List String} :
    Unbroken (Text.joinTexts sep texts).toList ↔ ∀ t ∈ texts, Unbroken t.toList := by
  rw [Text.joinTexts, String.toList_ofList, unbroken_join hsep, List.forall_mem_map]

/-! ## Escaping a line -/

namespace Event

theorem unbroken_lineEscape (c : Char) : Unbroken (lineEscape c) := by
  unfold lineEscape
  split
  · decide
  · split
    · decide
    · split
      · decide
      · rename_i hfeed hreturn hnul
        simp [Syslog.breaksLine, hfeed, hreturn, hnul]

theorem lineEscape_eq {c : Char} (h : Syslog.breaksLine c = false) : lineEscape c = [c] := by
  simp only [Syslog.breaksLine, Bool.or_eq_false_iff, decide_eq_false_iff_not] at h
  rw [lineEscape, if_neg h.1.1, if_neg h.1.2, if_neg h.2]

theorem flatMap_lineEscape {cs : List Char} (h : Unbroken cs) : cs.flatMap lineEscape = cs := by
  induction cs with
  | nil => rfl
  | cons c cs ih =>
    obtain ⟨hc, hcs⟩ := unbroken_cons.mp h
    rw [List.flatMap_cons, lineEscape_eq hc, ih hcs]
    rfl

theorem unbroken_oneLine (s : String) : Unbroken (oneLine s).toList := by
  rw [oneLine, String.toList_ofList]
  intro c hc
  obtain ⟨d, -, hd⟩ := List.mem_flatMap.mp hc
  exact unbroken_lineEscape d c hd

theorem oneLine_eq_iff (s : String) : oneLine s = s ↔ Unbroken s.toList := by
  constructor
  · intro h
    rw [← h]
    exact unbroken_oneLine s
  · intro h
    rw [oneLine, flatMap_lineEscape h, String.ofList_toList]

end Event

/-! ## Headers -/

namespace Syslog

theorem visible_texts {cs : List Char}
    (h : visible (cs.map fun c => .text (String.singleton c)) = .ok true) :
    ∀ c ∈ cs, isVisible c.toNat = true := by
  induction cs with
  | nil => simp
  | cons c cs ih =>
    obtain ⟨n, hn, h⟩ := bind_ok.mp h
    have hcode : characterCode (.text (String.singleton c)) = .ok c.toNat := by
      simp [characterCode]
    rw [hcode] at hn
    cases hn
    split at h
    · rename_i hvisible
      exact List.forall_mem_cons.mpr ⟨hvisible, ih h⟩
    · cases h

theorem visible_token {field : String} {limit place : Nat} {v : Value} {t : Option String}
    (hcheck : checkToken field limit v = .ok ()) (htoken : token place v = .ok t) :
    ∀ s ∈ t, ∀ c ∈ s.toList, isVisible c.toNat = true := by
  unfold token at htoken
  split at htoken
  · cases htoken
    simp
  · cases htoken
    rename_i s
    simp only [Option.mem_some_iff, forall_eq']
    simp only [checkToken, Value.items?] at hcheck
    split at hcheck
    · cases hcheck
    · split at hcheck
      · cases hcheck
      · rename_i hvisible
        exact visible_texts hvisible
      · cases hcheck
  · cases htoken

theorem unbroken_token {field : String} {limit place : Nat} {v : Value} {t : Option String}
    (hcheck : checkToken field limit v = .ok ()) (htoken : token place v = .ok t) :
    ∀ s ∈ t, Unbroken s.toList := by
  intro s hs c hc
  have hvisible := visible_token hcheck htoken s hs c hc
  simp only [isVisible, Bool.and_eq_true, decide_eq_true_eq] at hvisible
  exact breaksLine_of_le (by omega)

theorem unbroken_structuredData {v : Value} {s : String} (h : checkStructuredData v = .ok s) :
    Unbroken s.toList := by
  unfold checkStructuredData at h
  split at h
  · split at h
    · cases h
    · split at h
      · cases h
      · rename_i hany
        cases h
        simpa [Unbroken] using hany
  · cases h
  · cases h
  · cases h

theorem unbroken_timestampText (h : Header) : Unbroken h.timestampText.toList := by
  unfold Header.timestampText
  split
  · decide
  · exact (inert_timestamp _).unbroken

/-- The header holds what its fields were given, and they passed their checks. -/
structure Checked (raw : RawHeader) (header : Header) : Prop where
  facility : facilityOf raw.facility = .ok header.facility
  severity : severityOf raw.severity = .ok header.severity
  hostname_fits : checkToken "hostname" 255 raw.hostname = .ok ()
  appName_fits : checkToken "app_name" 48 raw.appName = .ok ()
  procid_fits : checkToken "procid" 128 raw.procid = .ok ()
  msgid_fits : checkToken "msgid" 32 raw.msgid = .ok ()
  structuredData : checkStructuredData raw.structuredData = .ok header.structuredData
  timestamp : timestampOf raw.timestamp = .ok header.timestamp
  hostname : token 2 raw.hostname = .ok header.hostname
  appName : token 3 raw.appName = .ok header.appName
  procid : token 4 raw.procid = .ok header.procid
  msgid : token 5 raw.msgid = .ok header.msgid

theorem check_ok_iff {raw : RawHeader} {header : Header} :
    Header.check raw = .ok header ↔ Checked raw header := by
  constructor
  · intro h
    obtain ⟨facility, hfacility, h⟩ := bind_ok.mp h
    obtain ⟨severity, hseverity, h⟩ := bind_ok.mp h
    obtain ⟨_, hhostname, h⟩ := bind_ok.mp h
    obtain ⟨_, happName, h⟩ := bind_ok.mp h
    obtain ⟨_, hprocid, h⟩ := bind_ok.mp h
    obtain ⟨_, hmsgid, h⟩ := bind_ok.mp h
    obtain ⟨structuredData, hdata, h⟩ := bind_ok.mp h
    obtain ⟨timestamp, htimestamp, h⟩ := bind_ok.mp h
    obtain ⟨hostname, hhostname', h⟩ := bind_ok.mp h
    obtain ⟨appName, happName', h⟩ := bind_ok.mp h
    obtain ⟨procid, hprocid', h⟩ := bind_ok.mp h
    obtain ⟨msgid, hmsgid', h⟩ := bind_ok.mp h
    cases h
    exact ⟨hfacility, hseverity, hhostname, happName, hprocid, hmsgid, hdata, htimestamp,
      hhostname', happName', hprocid', hmsgid'⟩
  · intro h
    simp only [Header.check, h.facility, h.severity, h.hostname_fits, h.appName_fits,
      h.procid_fits, h.msgid_fits, h.structuredData, h.timestamp, h.hostname, h.appName, h.procid,
      h.msgid]
    rfl

theorem unbroken_header {raw : RawHeader} {header : Header} (h : Header.check raw = .ok header) :
    Unbroken header.text.toList := by
  have hchecked := check_ok_iff.mp h
  have hnil : Unbroken nil.toList := by decide
  have htoken {t : Option String} (ht : ∀ s ∈ t, Unbroken s.toList) :
      Unbroken (t.getD nil).toList := by
    cases t with
    | none => exact hnil
    | some s => exact ht s rfl
  have hpriority (n : Nat) : Unbroken ("<" ++ toString n ++ ">1").toList := by
    rw [String.toList_append, String.toList_append, unbroken_append, unbroken_append]
    exact ⟨⟨by decide, (inert_nat n).unbroken⟩, by decide⟩
  rw [Header.text, unbroken_joinTexts (by decide)]
  simp only [List.forall_mem_cons, List.not_mem_nil, false_implies, implies_true, and_true]
  exact ⟨hpriority _, unbroken_timestampText _,
    htoken (unbroken_token hchecked.hostname_fits hchecked.hostname),
    htoken (unbroken_token hchecked.appName_fits hchecked.appName),
    htoken (unbroken_token hchecked.procid_fits hchecked.procid),
    htoken (unbroken_token hchecked.msgid_fits hchecked.msgid),
    unbroken_structuredData hchecked.structuredData⟩

end Syslog

/-! ## The lines of events -/

theorem Kind.names_inert : ∀ k ∈ registered, Inert k.name.toList := by decide

theorem Kind.isInert_of_isNameChar {c : Char} (h : isNameChar c = true) : isInert c = true := by
  simp only [isInert, Bool.and_eq_true, decide_eq_true_eq]
  refine ⟨⟨?_, ?_⟩, ?_⟩
  · simp only [isNameChar, Bool.or_eq_true, Bool.and_eq_true, decide_eq_true_eq] at h
    rcases h with (⟨hlow, -⟩ | ⟨hlow, -⟩) | rfl
    · exact Nat.lt_of_lt_of_le (by decide) (UInt32.le_iff_toNat_le.mp hlow)
    · exact Nat.lt_of_lt_of_le (by decide) (UInt32.le_iff_toNat_le.mp hlow)
    · decide
  all_goals
    rintro rfl
    revert h
    decide

theorem Kind.shownLabels_inert :
    ∀ k ∈ registered, ∀ f ∈ k.shownFields, Inert f.label.toList :=
  fun _ hk _ hf c hc => isInert_of_isNameChar (List.all_eq_true.mp (shownLabels_spelled hk hf) c hc)

namespace Event

theorem unbroken_pairsText {e : Event} (h : e.Loaded) :
    ∃ text, e.pairsText = .ok text ∧
      (Unbroken text.toList ↔
        ∀ f ∈ e.kind.fields, ∀ z ∈ (e.get f.name).zones, Unbroken z.toList) := by
  obtain ⟨text, htext, hpairs⟩ := exists_texts h
  refine ⟨_, by rw [Event.pairsText, hpairs]; rfl, ?_⟩
  have hpair : ∀ f ∈ e.kind.shownFields, (Unbroken (f.label ++ "=" ++ text f).toList ↔
      ∀ z ∈ (e.get f.name).zones, Unbroken z.toList) := by
    intro f hf
    have hlabel := (Kind.shownLabels_inert _ h.registered f hf).unbroken
    have hadmits := h.admits f (Kind.mem_fields_iff.mpr (.inr hf))
    rw [String.toList_append, String.toList_append, unbroken_append, unbroken_append,
      and_iff_right ⟨hlabel, by decide⟩]
    exact (shownText_zones h.registered hf hadmits (htext f hf)).2
  have hnil : ∀ z ∈ ([] : List String), Unbroken z.toList := by simp
  rw [forall_fields_iff h (P := fun zones => ∀ z ∈ zones, Unbroken z.toList) hnil,
    pairsText_eq, unbroken_joinTexts (by decide), List.forall_mem_map, labelled,
    List.forall_mem_map]
  exact forall₂_congr hpair

theorem pairsText_of_pairs {e : Event} {ps : List (String × String)} (h : e.pairs = .ok ps) :
    e.pairsText = .ok (Detection.pairsText ps) := by
  rw [pairsText, h]
  rfl

theorem displayLine_of_pairsText {e : Event} {text : String} (h : e.pairsText = .ok text) :
    e.displayLine = .ok (e.kind.name ++ " \x7b " ++ text ++ " \x7d") := by
  rw [displayLine, h]
  rfl

theorem syslogLine_of_pairsText {e : Event} {text : String} (h : e.pairsText = .ok text)
    (header : Syslog.Header) :
    e.syslogLine header = .ok (oneLine (header.text ++ " " ++ text)) := by
  rw [syslogLine, h]
  rfl

/-- Display form and syslog form hold the pairs of a record's event character for character, on one line
each, exactly when no zone of its addresses breaks the line. The syslog form is one line in any case. -/
theorem lines_of_ofRecord {record : Value} {e : Event} (h : ofRecord record = .ok e)
    {raw : Syslog.RawHeader} {header : Syslog.Header} (hheader : Syslog.Header.check raw = .ok header) :
    ∃ text display line, e.pairsText = .ok text ∧
      e.displayLine = .ok display ∧ display = e.kind.name ++ " \x7b " ++ text ++ " \x7d" ∧
      e.syslogLine header = .ok line ∧ Unbroken line.toList ∧
      (line = header.text ++ " " ++ text ↔
        ∀ f ∈ e.kind.fields, ∀ z ∈ (e.get f.name).zones, Unbroken z.toList) ∧
      (Unbroken display.toList ↔
        ∀ f ∈ e.kind.fields, ∀ z ∈ (e.get f.name).zones, Unbroken z.toList) := by
  have hloaded := loaded_of_ofRecord h
  obtain ⟨text, htext, hzones⟩ := unbroken_pairsText hloaded
  refine ⟨text, _, _, htext, displayLine_of_pairsText htext, rfl,
    syslogLine_of_pairsText htext header, unbroken_oneLine _, ?_, ?_⟩
  · rw [oneLine_eq_iff, ← hzones, String.toList_append, String.toList_append, unbroken_append,
      unbroken_append]
    exact and_iff_right ⟨Syslog.unbroken_header hheader, by decide⟩
  · have hname := (Kind.names_inert _ hloaded.registered).unbroken
    rw [← hzones, String.toList_append, String.toList_append, String.toList_append,
      unbroken_append, unbroken_append, unbroken_append]
    rw [and_iff_left (by decide), and_iff_right ⟨hname, by decide⟩]

theorem lines_portScan :
    ∃ e header, ofRecord (portScan "fe80::1%eth0") = .ok e ∧ Syslog.Header.check {} = .ok header ∧
      ∃ text display line, e.pairsText = .ok text ∧
        e.displayLine = .ok display ∧ display = e.kind.name ++ " \x7b " ++ text ++ " \x7d" ∧
        e.syslogLine header = .ok line ∧ Unbroken line.toList ∧
        (line = header.text ++ " " ++ text ↔
          ∀ f ∈ e.kind.fields, ∀ z ∈ (e.get f.name).zones, Unbroken z.toList) ∧
        (Unbroken display.toList ↔
          ∀ f ∈ e.kind.fields, ∀ z ∈ (e.get f.name).zones, Unbroken z.toList) := by
  obtain ⟨e, he⟩ := exists_portScan
  obtain ⟨header, hheader⟩ : ∃ header, Syslog.Header.check {} = .ok header := ⟨_, rfl⟩
  exact ⟨e, header, he, hheader, lines_of_ofRecord he hheader⟩

/-- A zone with a line feed in it breaks the display line, and the syslog line differs from it. -/
theorem lines_broken :
    ∃ e header text display line, ofRecord (portScan "fe80::1%a\nb") = .ok e ∧
      Syslog.Header.check {} = .ok header ∧ e.pairsText = .ok text ∧
      e.displayLine = .ok display ∧ e.syslogLine header = .ok line ∧
      '\n' ∈ display.toList ∧ line ≠ header.text ++ " " ++ text := by
  have hfeed : (do
      let e ← (ofRecord (portScan "fe80::1%a\nb")).toOption
      let text ← e.pairsText.toOption
      pure (text.toList.contains '\n')) = some true := by decide +kernel
  simp only [Option.bind_eq_bind, Option.bind_eq_some_iff, toOption_eq_some, Option.pure_def,
    Option.some.injEq, List.contains_iff_mem] at hfeed
  obtain ⟨e, he, text, htext, hfeed⟩ := hfeed
  obtain ⟨header, hheader⟩ : ∃ header, Syslog.Header.check {} = .ok header := ⟨_, rfl⟩
  refine ⟨e, header, text, _, _, he, hheader, htext, displayLine_of_pairsText htext,
    syslogLine_of_pairsText htext header, by simp [hfeed], ?_⟩
  intro heq
  rw [oneLine_eq_iff] at heq
  have hbreak := heq '\n' (by simp [hfeed])
  exact absurd hbreak (by decide)

end Event

end Detection
