import Detection.Proofs.Line.OneLine
import Detection.Proofs.Text.Split

/-! # The header of a line is read back from it

The fields in front of the structured data have no space in them, so the first six spaces of a header
tell its fields apart. Nothing in a header is escaped on the line, so it can be read from there too.
-/

namespace Detection

/-! ## Facility and severity -/

theorem Severity.number_lt (s : Severity) : s.number < 8 := by
  cases s <;> decide

theorem priority_div (f : Facility) (s : Severity) : priority f s / 8 = f.number := by
  have hlt := s.number_lt
  unfold priority
  omega

theorem priority_mod (f : Facility) (s : Severity) : priority f s % 8 = s.number := by
  have hlt := s.number_lt
  unfold priority
  omega

namespace Syslog

theorem number_of_find? {α : Type} {all : List α} {number : α → Nat} {v : Value} {a : α}
    (h : (v.integer?.bind fun n => all.find? fun x => (number x : Int) = n) = some a) :
    v.integer? = some (number a : Int) := by
  obtain ⟨n, hn, hfind⟩ := Option.bind_eq_some_iff.mp h
  have hnumber := List.find?_some hfind
  rw [hn, of_decide_eq_true hnumber]

theorem number_of_facilityOf {v : Value} {f : Facility} (h : facilityOf v = .ok f) :
    v.integer? = some (f.number : Int) := by
  unfold facilityOf at h
  split at h
  · rename_i hfacility
    cases h
    exact number_of_find? hfacility
  · cases h

theorem number_of_severityOf {v : Value} {s : Severity} (h : severityOf v = .ok s) :
    v.integer? = some (s.number : Int) := by
  unfold severityOf at h
  split at h
  · rename_i hseverity
    cases h
    exact number_of_find? hseverity
  · cases h

/-! ## Fields -/

def fieldText : Value → String
  | .text s => s
  | .time t => t.anchored.text
  | _ => nil

theorem token_text {place : Nat} {v : Value} {t : Option String} (h : token place v = .ok t) :
    t.getD nil = fieldText v := by
  unfold token at h
  split at h
  · cases h
    rfl
  · cases h
    rfl
  · cases h

theorem timestamp_text {raw : RawHeader} {header : Header} (h : Checked raw header) :
    header.timestampText = fieldText raw.timestamp := by
  have htime := h.timestamp
  unfold timestampOf at htime
  unfold Header.timestampText
  split at htime
  · rename_i hraw
    rw [hraw, ← Except.ok.inj htime]
    rfl
  · rename_i t hraw
    rw [hraw, ← Except.ok.inj htime]
    rfl
  · cases htime

theorem structuredData_text {v : Value} {s : String} (h : checkStructuredData v = .ok s) :
    s = fieldText v := by
  unfold checkStructuredData at h
  split at h
  · split at h
    · cases h
    · split at h
      · cases h
      · cases h
        rfl
  · cases h
  · cases h
  · cases h

def Header.leading (h : Header) : List String :=
  ["<" ++ toString h.priority ++ ">1", h.timestampText, h.hostname.getD nil, h.appName.getD nil,
    h.procid.getD nil, h.msgid.getD nil]

theorem Header.toList_text (h : Header) :
    h.text.toList = Text.join [' '] (h.leading.map String.toList ++ [h.structuredData.toList]) :=
  String.toList_ofList

theorem space_not_mem_of_inert {cs : List Char} (h : Inert cs) : ' ' ∉ cs :=
  fun hmem => ne_space_of_inert (h ' ' hmem) rfl

theorem space_not_mem_token {field : String} {limit place : Nat} {v : Value} {t : Option String}
    (hcheck : checkToken field limit v = .ok ()) (htoken : token place v = .ok t) :
    ' ' ∉ (t.getD nil).toList := by
  cases t with
  | none => decide
  | some s =>
    intro hmem
    have hvisible := visible_token hcheck htoken s rfl ' ' hmem
    exact absurd hvisible (by decide)

theorem space_not_mem_leading {raw : RawHeader} {header : Header} (h : Checked raw header) :
    ∀ p ∈ header.leading.map String.toList, ' ' ∉ p := by
  have hpriority : ' ' ∉ ("<" ++ toString header.priority ++ ">1").toList := by
    apply space_not_mem_of_inert
    rw [String.toList_append, String.toList_append, inert_append, inert_append]
    exact ⟨⟨by decide, inert_nat _⟩, by decide⟩
  have htimestamp : ' ' ∉ header.timestampText.toList := by
    unfold Header.timestampText
    split
    · decide
    · exact space_not_mem_of_inert (inert_timestamp _)
  rw [List.forall_mem_map]
  simp only [Header.leading, List.forall_mem_cons, List.not_mem_nil, false_implies, implies_true,
    and_true]
  exact ⟨hpriority, htimestamp, space_not_mem_token h.hostname_fits h.hostname,
    space_not_mem_token h.appName_fits h.appName, space_not_mem_token h.procid_fits h.procid,
    space_not_mem_token h.msgid_fits h.msgid⟩

theorem leading_eq {raw : RawHeader} {header : Header} (h : Checked raw header) :
    header.leading = ("<" ++ toString header.priority ++ ">1") ::
      [raw.timestamp, raw.hostname, raw.appName, raw.procid, raw.msgid].map fieldText := by
  unfold Header.leading
  rw [timestamp_text h, token_text h.hostname, token_text h.appName, token_text h.procid,
    token_text h.msgid]
  rfl

/-! ## Cutting headers and lines -/

theorem cut_header {raw : RawHeader} {header : Header} (h : Checked raw header) :
    Text.cutTimes ' ' 6 header.text.toList =
      header.leading.map String.toList ++ [header.structuredData.toList] := by
  rw [header.toList_text]
  exact Text.cutTimes_join (space_not_mem_leading h) _

theorem cut_line {raw : RawHeader} {header : Header} (h : Checked raw header)
    (hdata : ' ' ∉ header.structuredData.toList) (message : String) :
    Text.cutTimes ' ' 7 (header.text ++ " " ++ message).toList =
      Text.cutTimes ' ' 6 header.text.toList ++ [message.toList] := by
  have hparts : ∀ p ∈ header.leading.map String.toList ++ [header.structuredData.toList], ' ' ∉ p := by
    rw [List.forall_mem_append, List.forall_mem_singleton]
    exact ⟨space_not_mem_leading h, hdata⟩
  have hline : (header.text ++ " " ++ message).toList =
      Text.join [' '] (header.leading.map String.toList ++ [header.structuredData.toList] ++
        [message.toList]) := by
    rw [String.toList_append, String.toList_append, header.toList_text]
    simp [Header.leading, Text.join]
  rw [hline, cut_header h]
  exact Text.cutTimes_join hparts _

theorem oneLine_append (s t : String) :
    Event.oneLine (s ++ t) = Event.oneLine s ++ Event.oneLine t := by
  unfold Event.oneLine
  rw [String.toList_append, List.flatMap_append, String.ofList_append]

theorem line_eq {raw : RawHeader} {header : Header} (h : Header.check raw = .ok header) {e : Event}
    {line : String} (hline : e.syslogLine header = .ok line) :
    ∃ text, e.pairsText = .ok text ∧ line = header.text ++ " " ++ Event.oneLine text := by
  obtain ⟨text, htext, -⟩ := bind_ok.mp hline
  rw [Event.syslogLine_of_pairsText htext] at hline
  have hheader : Event.oneLine (header.text ++ " ") = header.text ++ " " := by
    rw [Event.oneLine_eq_iff, String.toList_append, unbroken_append]
    exact ⟨unbroken_header h, by decide⟩
  exact ⟨text, htext, by rw [← Except.ok.inj hline, oneLine_append, hheader]⟩

/-- Cut at its first six spaces, a header gives the priority, from which facility and severity are
told, the text of each field, and as what is left the structured data. On a line it stands as it is.
So a line without structured data is cut at its first seven spaces into the header and the message,
of which no character but one that breaks the line is escaped. -/
theorem header_readBack {raw : RawHeader} {header : Header} (h : Header.check raw = .ok header) :
    (∃ p : Nat, raw.facility.integer? = some ((p / 8 : Nat) : Int) ∧
      raw.severity.integer? = some ((p % 8 : Nat) : Int) ∧
      Text.cutTimes ' ' 6 header.text.toList = (("<" ++ toString p ++ ">1") ::
        [raw.timestamp, raw.hostname, raw.appName, raw.procid, raw.msgid,
          raw.structuredData].map fieldText).map String.toList) ∧
    ∀ (e : Event) (line : String), e.syslogLine header = .ok line →
      ∃ text, e.pairsText = .ok text ∧ line = header.text ++ " " ++ Event.oneLine text ∧
        (Event.oneLine text = text ↔ Unbroken text.toList) ∧
        (raw.structuredData = .text nil → Text.cutTimes ' ' 7 line.toList =
          Text.cutTimes ' ' 6 header.text.toList ++ [(Event.oneLine text).toList]) := by
  have hchecked := check_ok_iff.mp h
  constructor
  · refine ⟨header.priority, ?_, ?_, ?_⟩
    · rw [Header.priority, priority_div]
      exact number_of_facilityOf hchecked.facility
    · rw [Header.priority, priority_mod]
      exact number_of_severityOf hchecked.severity
    · rw [cut_header hchecked, leading_eq hchecked, structuredData_text hchecked.structuredData]
      rfl
  · intro e line hline
    obtain ⟨text, htext, rfl⟩ := line_eq h hline
    refine ⟨text, htext, rfl, Event.oneLine_eq_iff text, fun hnil => ?_⟩
    have hdata : header.structuredData = nil := by
      rw [structuredData_text hchecked.structuredData, hnil]
      rfl
    exact cut_line hchecked (by rw [hdata]; decide) _

def relayHeader : RawHeader where
  facility := .int 4
  severity := .int 3
  timestamp := .time ⟨⟨2024, 1, 2, by decide, by decide, by decide⟩, .midnight, none⟩
  hostname := .text "sensor-1"
  procid := .text "42"

theorem readBack_relayHeader :
    ∃ header e line text, Header.check relayHeader = .ok header ∧ e.syslogLine header = .ok line ∧
      Event.pairsText e = .ok text ∧ relayHeader.structuredData = .text nil ∧
      Text.cutTimes ' ' 7 line.toList = ["<35>1", "2024-01-02T00:00:00+00:00", "sensor-1", "-", "42",
        "-", "-", Event.oneLine text].map String.toList := by
  obtain ⟨header, hheader⟩ : ∃ header, Header.check relayHeader = .ok header := ⟨_, rfl⟩
  obtain ⟨e, he⟩ := Event.exists_portScan
  obtain ⟨text, htext, -⟩ := Event.unbroken_pairsText (Event.loaded_of_ofRecord he)
  have hline := Event.syslogLine_of_pairsText htext header
  obtain ⟨⟨p, hfacility, hseverity, hcut⟩, hlines⟩ := header_readBack hheader
  obtain ⟨text', htext', -, -, hseven⟩ := hlines e _ hline
  rw [htext] at htext'
  cases htext'
  have hp : p = 35 := by
    simp only [relayHeader, Value.integer?, Option.some.injEq] at hfacility hseverity
    omega
  refine ⟨header, e, _, text, hheader, hline, htext, rfl, ?_⟩
  rw [hseven rfl, hcut, hp]
  rfl

end Syslog

end Detection
