import Detection.Proofs.Line.Colours
import Detection.Proofs.Line.Texts
import Detection.Proofs.Loader.Outcome
import Detection.Proofs.Program.Frame

/-! # Messages that can be printed wherever they appear

Printing fails where a text asks for another window title and there is no terminal. The messages of
errors that nobody expects show names and values as literals, so none of them asks for one.
-/

namespace Detection

namespace Terminal

/-- A text in which no code begins. -/
def Plain (s : String) : Prop := ∀ c ∈ s.toList, isPlain c = true

instance (s : String) : Decidable (Plain s) := List.decidableBAll _ s.toList

theorem plain_append {s t : String} : Plain (s ++ t) ↔ Plain s ∧ Plain t := by
  simp only [Plain, String.toList_append, List.forall_mem_append]

theorem plain_of_inert {s : String} (h : Inert s.toList) : Plain s :=
  fun c hc => isPlain_of_isInert (h c hc)

theorem plain_nat (n : Nat) : Plain (toString n) := plain_of_inert (inert_nat n)

theorem isSome_plain? {start left : List Char} (h : Leaves start left) {s : String}
    (hs : Plain s) : (plain? (String.ofList start ++ s)).isSome = true := by
  have hcommands : commands 0 0 (String.ofList start ++ s).toList = [] := by
    have hrest := (h.append (leaves_plain hs)).commands 0 []
    rw [List.append_nil] at hrest
    rw [String.toList_append, String.toList_ofList, hrest]
    rfl
  simp only [plain?, hcommands, List.any_nil, Bool.false_eq_true, if_false, Option.isSome_some]

theorem leaves_red : Leaves red.toList [] :=
  leaves_code ['3', '1'] (List.all_eq_true.mp (by decide))
    (List.all_eq_true.mp (by decide))

end Terminal

open Terminal

/-! ## Tables -/

theorem plain_intercalate {sep : String} {texts : List String} (hsep : Plain sep)
    (h : ∀ t ∈ texts, Plain t) : Plain (sep.intercalate texts) := by
  induction texts with
  | nil =>
    rw [String.intercalate_nil]
    decide
  | cons t texts ih =>
    obtain ⟨ht, hrest⟩ := List.forall_mem_cons.mp h
    by_cases hempty : texts = []
    · rw [hempty, String.intercalate_singleton]
      exact ht
    · rw [String.intercalate_cons_of_ne_nil hempty, plain_append, plain_append]
      exact ⟨⟨ht, hsep⟩, ih hrest⟩

theorem plain_replicate (n : Nat) {c : Char} (h : isPlain c = true) :
    Plain (String.ofList (List.replicate n c)) := by
  intro d hd
  rw [String.toList_ofList] at hd
  rw [List.eq_of_mem_replicate hd]
  exact h

theorem plain_rule {mark : Char} (h : isPlain mark = true) (ws : List Nat) :
    Plain (Grid.rule mark ws) := by
  refine plain_append.mpr ⟨plain_append.mpr ⟨by decide, plain_intercalate (by decide) ?_⟩, by decide⟩
  intro t ht
  obtain ⟨w, -, rfl⟩ := List.mem_map.mp ht
  exact plain_replicate _ h

theorem plain_rowLine {ws : List Nat} {row : List String} (h : ∀ t ∈ row, Plain t) :
    Plain (Grid.rowLine ws row) := by
  refine plain_append.mpr ⟨plain_append.mpr ⟨by decide, plain_intercalate (by decide) ?_⟩, by decide⟩
  intro t ht
  rw [← List.map_uncurry_zip_eq_zipWith] at ht
  obtain ⟨⟨w, text⟩, hmem, rfl⟩ := List.mem_map.mp ht
  have htext := h text (List.of_mem_zip hmem).2
  exact plain_append.mpr ⟨plain_append.mpr ⟨plain_append.mpr ⟨by decide, htext⟩,
    plain_replicate _ rfl⟩, by decide⟩

theorem plain_lines {headings : List String} {rows : List (List String)}
    (hheadings : ∀ t ∈ headings, Plain t) (hrows : ∀ row ∈ rows, ∀ t ∈ row, Plain t) :
    ∀ line ∈ Grid.lines headings rows, Plain line := by
  intro line hline
  simp only [Grid.lines, List.cons_append, List.nil_append, List.mem_cons, List.mem_flatMap,
    List.not_mem_nil, or_false] at hline
  rcases hline with rfl | rfl | rfl | ⟨row, hrow, rfl | rfl⟩
  · exact plain_rule rfl _
  · exact plain_rowLine hheadings
  · exact plain_rule rfl _
  · exact plain_rowLine (hrows row hrow)
  · exact plain_rule rfl _

/-! ## Literals -/

theorem isPlain_of_isPrintable {c : Char} (h : Text.isPrintable c = true) : isPlain c = true := by
  rw [isPlain_iff]
  refine ⟨?_, ?_, ?_⟩ <;>
  · rintro rfl
    revert h
    decide

theorem plain_literalChar {q : Char} (hq : isPlain q = true) (c : Char) :
    ∀ d ∈ Text.literalChar q c, isPlain d = true := by
  have hescape (n : Nat) : ∀ d ∈ Text.numericEscape n, isPlain d = true := by
    have hdigits (width : Nat) : ∀ d ∈ Text.hexDigits width n, isPlain d = true :=
      fun d hd => isPlain_of_isInert (inert_hexDigits width n d hd)
    unfold Text.numericEscape
    split
    · exact List.forall_mem_cons.mpr ⟨rfl, List.forall_mem_cons.mpr ⟨rfl, hdigits 2⟩⟩
    · split
      · exact List.forall_mem_cons.mpr ⟨rfl, List.forall_mem_cons.mpr ⟨rfl, hdigits 4⟩⟩
      · exact List.forall_mem_cons.mpr ⟨rfl, List.forall_mem_cons.mpr ⟨rfl, hdigits 8⟩⟩
  have hpair {a b : Char} (ha : isPlain a = true) (hb : isPlain b = true) :
      ∀ d ∈ [a, b], isPlain d = true :=
    List.forall_mem_cons.mpr ⟨ha, List.forall_mem_singleton.mpr hb⟩
  unfold Text.literalChar
  split
  · exact hpair rfl rfl
  · exact hpair rfl rfl
  · exact hpair rfl rfl
  · exact hpair rfl rfl
  · split
    · rename_i hc
      exact hpair rfl (hc ▸ hq)
    · split
      · rename_i hprintable
        exact List.forall_mem_singleton.mpr (isPlain_of_isPrintable hprintable)
      · exact hescape _

theorem plain_literal (s : String) : Plain (Text.literal s) := by
  have hquote (a b : Bool) : isPlain (Text.literalQuote a b) = true := by
    revert a b
    decide
  intro c hc
  simp only [Text.literal, String.toList_ofList, List.cons_append, List.mem_cons, List.mem_append,
    List.mem_flatMap, List.not_mem_nil, or_false] at hc
  rcases hc with rfl | ⟨d, -, hc⟩ | rfl
  · exact hquote _ _
  · exact plain_literalChar (hquote _ _) d c hc
  · exact hquote _ _

theorem plain_fullTypeName (v : Value) : Plain v.fullTypeName := by
  cases v with
  | address a =>
    simp only [Value.fullTypeName, Value.typeName]
    split <;> decide
  | member m =>
    cases m <;>
    · simp only [Value.fullTypeName, Value.typeName, Member.className]
      decide
  | _ =>
    simp only [Value.fullTypeName, Value.typeName]
    decide

/-! ## Errors of files -/

theorem plain_failureText (f : Utf8.Failure) : Plain (failureText f) := by
  have hreason : Plain f.flaw.reason := by cases f.flaw <;> decide
  have hdigits (b : UInt8) : Plain (String.ofList (Text.hexDigits 2 b.toNat)) :=
    plain_of_inert (by rw [String.toList_ofList]; exact inert_hexDigits 2 _)
  have hstart : Plain "'utf-8' codec can't decode " := by decide
  have hcolon : Plain ": " := by decide
  unfold failureText
  simp only [plain_append, hreason, hstart, hcolon, true_and, and_true]
  split
  · simp only [plain_append, hdigits, plain_nat, and_true]
    decide
  · simp only [plain_append, plain_nat, and_true]
    decide

theorem ReadError.plain_message (e : ReadError) : Plain e.message := by
  cases e with
  | notText cause => exact plain_failureText cause
  | missing path => exact plain_append.mpr ⟨by decide, plain_literal path⟩
  | directory path => exact plain_append.mpr ⟨by decide, plain_literal path⟩
  | notDirectory path => exact plain_append.mpr ⟨by decide, plain_literal path⟩

theorem WriteError.plain_message (e : WriteError) : Plain e.message := by
  cases e with
  | nul => decide
  | missing path => exact plain_append.mpr ⟨by decide, plain_literal path⟩
  | directory path => exact plain_append.mpr ⟨by decide, plain_literal path⟩
  | notDirectory path => exact plain_append.mpr ⟨by decide, plain_literal path⟩
  | occupied path => exact plain_append.mpr ⟨by decide, plain_literal path⟩

/-! ## Errors of headers -/

namespace Syslog

/-- An error that is expected, or one with a message that can be printed anywhere. -/
def HeaderError.IsAnswerable (e : HeaderError) : Prop := e.isExpected = true ∨ Plain e.message

theorem manyCharacters_answerable (n : Nat) : (HeaderError.manyCharacters n).IsAnswerable := by
  refine .inr (plain_append.mpr ⟨plain_append.mpr ⟨?_, plain_nat n⟩, ?_⟩)
  · decide
  · decide

theorem characterCode_answerable {v : Value} {e : HeaderError} (h : characterCode v = .error e) :
    e.IsAnswerable := by
  unfold characterCode at h
  split at h
  · split at h <;> cases h
    exact manyCharacters_answerable _
  · split at h <;> cases h
    exact manyCharacters_answerable _
  · split at h <;> cases h
    exact manyCharacters_answerable _
  · split at h <;> cases h
    exact manyCharacters_answerable _
  · cases h
    have hname := plain_fullTypeName v
    exact .inr (plain_append.mpr ⟨plain_append.mpr ⟨by decide, hname⟩, by decide⟩)

theorem visible_answerable {vs : List Value} {e : HeaderError} (h : visible vs = .error e) :
    e.IsAnswerable := by
  induction vs with
  | nil => cases h
  | cons v vs ih =>
    rw [visible] at h
    rcases bind_error.mp h with h | ⟨n, -, h⟩
    · exact characterCode_answerable h
    · split at h
      · exact ih h
      · cases h

theorem checkToken_answerable {field : String} {limit : Nat} {v : Value} {e : HeaderError}
    (h : checkToken field limit v = .error e) : e.IsAnswerable := by
  unfold checkToken at h
  split at h
  · cases h
  · split at h <;> cases h
    · exact .inl rfl
    · exact .inr (plain_append.mpr ⟨plain_literal _, by decide⟩)
  · split at h
    · cases h
      refine .inr (plain_append.mpr ⟨plain_append.mpr ⟨?_, plain_literal _⟩, ?_⟩) <;> decide
    · split at h
      · cases h
        exact .inl rfl
      · split at h
        · rename_i hvisible
          cases h
          exact visible_answerable hvisible
        · cases h
        · cases h
          exact .inl rfl

theorem notText_answerable (place : Nat) (v : Value) :
    (HeaderError.notText place v.fullTypeName).IsAnswerable := by
  have hstart : Plain ("sequence item " ++ toString place) :=
    plain_append.mpr ⟨by decide, plain_nat place⟩
  have hmiddle : Plain ("sequence item " ++ toString place ++ ": expected str instance, ") :=
    plain_append.mpr ⟨hstart, by decide⟩
  exact .inr (plain_append.mpr ⟨plain_append.mpr ⟨hmiddle, plain_fullTypeName v⟩, by decide⟩)

theorem token_answerable {place : Nat} {v : Value} {e : HeaderError}
    (h : token place v = .error e) : e.IsAnswerable := by
  cases v with
  | none => cases h
  | text s => cases h
  | _ =>
    obtain rfl := Except.error.inj h
    exact notText_answerable _ _

theorem noAttribute_answerable (typeName part : String) :
    (HeaderError.noAttribute typeName part).IsAnswerable :=
  .inr (plain_append.mpr ⟨plain_append.mpr ⟨plain_literal _, by decide⟩, plain_literal _⟩)

theorem checkStructuredData_answerable {v : Value} {e : HeaderError}
    (h : checkStructuredData v = .error e) : e.IsAnswerable := by
  unfold checkStructuredData at h
  split at h
  · split at h
    · cases h
      exact .inl rfl
    · split at h <;> cases h
      exact .inl rfl
  · cases h
    exact .inr (by decide)
  · cases h
    exact .inr (by decide)
  · cases h
    exact noAttribute_answerable _ _

theorem timestampOf_answerable {v : Value} {e : HeaderError} (h : timestampOf v = .error e) :
    e.IsAnswerable := by
  unfold timestampOf at h
  split at h
  · cases h
  · cases h
  · cases h
    exact noAttribute_answerable _ _

theorem facilityOf_member (f : Facility) : facilityOf (.member (.facility f)) = .ok f := by
  cases f <;> rfl

theorem severityOf_member (s : Severity) : severityOf (.member (.severity s)) = .ok s := by
  cases s <;> rfl

/-- Facility and severity are shown as they are when they are wrong; here both are members. -/
theorem check_answerable {raw : RawHeader} {facility : Facility} {severity : Severity}
    {e : HeaderError} (hfacility : raw.facility = .member (.facility facility))
    (hseverity : raw.severity = .member (.severity severity)) (h : Header.check raw = .error e) :
    e.IsAnswerable := by
  simp only [Header.check, bind_error, hfacility, hseverity, facilityOf_member, severityOf_member,
    reduceCtorEq, false_or] at h
  rcases h with ⟨_, -, _, -, h | ⟨_, -, h | ⟨_, -, h | ⟨_, -, h | ⟨_, -, h | ⟨_, -, h | ⟨_, -, h |
    ⟨_, -, h | ⟨_, -, h | ⟨_, -, h | ⟨_, -, h⟩⟩⟩⟩⟩⟩⟩⟩⟩⟩⟩
  · exact checkToken_answerable h
  · exact checkToken_answerable h
  · exact checkToken_answerable h
  · exact checkToken_answerable h
  · exact checkStructuredData_answerable h
  · exact timestampOf_answerable h
  · exact token_answerable h
  · exact token_answerable h
  · exact token_answerable h
  · exact token_answerable h
  · cases h

end Syslog

/-! ## Errors of a run -/

theorem Event.ofDocument_error {document : Value} {err : LoadError}
    (h : ofDocument document = .error err) :
    (EventFileError.record err).isExpected = true ∨ (∃ typeName, err = .unhashable typeName) ∨
      err = .unmade .digits := by
  have hrecord : ∃ record, ofRecord record = .error err := by
    unfold ofDocument at h
    split at h
    · obtain ⟨record, -, herror⟩ := exists_of_mapM_error h
      exact ⟨record, herror⟩
    · rcases bind_error.mp h with herror | ⟨_, -, h⟩
      · exact ⟨_, herror⟩
      · cases h
  obtain ⟨record, hrecord⟩ := hrecord
  rcases ofRecord_cases record none with
    ⟨e, he, -⟩ | ⟨err', herror, hexpected⟩ | ⟨_, cause, -, hcause, herror⟩ |
      ⟨_, typeName, -, -, herror⟩ | ⟨_, doing, -, hdeep, -⟩
  · cases he.symm.trans hrecord
  · cases herror.symm.trans hrecord
    exact .inl hexpected
  · cases herror.symm.trans hrecord
    rw [Value.digits_of_displayExcess? _ hcause]
    exact .inr (.inr rfl)
  · cases herror.symm.trans hrecord
    exact .inr (.inl ⟨typeName, rfl⟩)
  · exact absurd hdeep not_isTooDeep

theorem Excess.plain_digits : Terminal.Plain digits.message :=
  plain_append.mpr ⟨plain_append.mpr ⟨plain_append.mpr ⟨by decide, plain_nat _⟩, by decide +kernel⟩,
    by decide +kernel⟩

theorem Json.Cause.plain_text {cause : Cause} (h : cause.isReported = false) :
    Terminal.Plain cause.text := by
  cases cause with
  | calls atObject => cases atObject <;> decide +kernel
  | digits count =>
    refine plain_append.mpr ⟨plain_append.mpr ⟨plain_append.mpr ⟨?_, by decide +kernel⟩,
      plain_nat count⟩, by decide +kernel⟩
    exact plain_append.mpr ⟨by decide, plain_nat _⟩
  | _ => cases h

theorem plain_malformed (name : String) (cause : Json.Cause) (place : Json.Place) :
    (EventFileError.malformed name cause place).isExpected = true ∨
      Plain (EventFileError.malformed name cause place).message := by
  by_cases hreported : cause.isReported = true
  · exact .inl hreported
  · have hmessage : (EventFileError.malformed name cause place).message = cause.text :=
      if_neg hreported
    rw [hmessage]
    exact .inr (Json.Cause.plain_text (Bool.eq_false_iff.mpr hreported))

theorem eventsOf_error {files : Files} {path : String} {cause : EventFileError}
    (h : eventsOf files path = .error cause) :
    cause.isExpected = true ∨ Plain cause.message := by
  simp only [eventsOf] at h
  split at h
  · simp only [bind_error, mapError_error] at h
    rcases h with ⟨cause, -, rfl⟩ | ⟨text, -, h⟩
    · exact .inr cause.plain_message
    · rcases h with h | ⟨document, -, err, herr, rfl⟩
      · unfold documentOf at h
        split at h <;> cases h
        exact plain_malformed _ _ _
      · rcases Event.ofDocument_error herr with hexpected | ⟨typeName, rfl⟩ | rfl
        · exact .inl hexpected
        · exact .inr (plain_append.mpr ⟨by decide, plain_literal typeName⟩)
        · exact .inr Excess.plain_digits
  · cases h
    exact .inl rfl

namespace Program

open CommandLine (Request)

def IsAnswerable (f : Failure) : Prop := (report f).isExpected = true ∨ Plain f.message

theorem events_answerable {files : Files} {path : String} {cause : EventFileError}
    (h : eventsOf files path = .error cause) : IsAnswerable (.events cause) := by
  rcases eventsOf_error h with hexpected | hplain
  · refine .inl ?_
    rw [report, if_pos hexpected]
  · exact .inr hplain

theorem named_answerable {α : Type} {ofName? : String → Option α} {v : Value} {f : Failure}
    (h : named ofName? v = .error f) : IsAnswerable f := by
  simp only [named] at h
  split at h <;> cases h
  exact .inl rfl

theorem check_answerable {raw : Syslog.RawHeader} {facility : Facility} {severity : Severity}
    {f : Failure} (hfacility : raw.facility = .member (.facility facility))
    (hseverity : raw.severity = .member (.severity severity))
    (h : (Syslog.Header.check raw).mapError .header = .error f) : IsAnswerable f := by
  obtain ⟨cause, hcause, rfl⟩ := mapError_error.mp h
  rcases Syslog.check_answerable hfacility hseverity hcause with hexpected | hplain
  · refine .inl ?_
    rw [report, if_pos hexpected]
  · exact .inr hplain

theorem header_answerable {m : Machine} {s : Settings} {r : Request} {e : Event} {f : Failure}
    (h : header m s r e = .error f) : IsAnswerable f := by
  unfold header at h
  simp only [pure_bind] at h
  split at h
  · rcases bind_error.mp h with h | ⟨severity, -, h⟩
    · exact named_answerable h
    · exact check_answerable rfl rfl h
  · rcases bind_error.mp h with h | ⟨facility, -, h⟩
    · exact named_answerable h
    · rcases bind_error.mp h with h | ⟨severity, -, h⟩
      · exact named_answerable h
      · exact check_answerable rfl rfl h

theorem write_answerable (cause : WriteError) : IsAnswerable (.write cause) :=
  .inr cause.plain_message

theorem title_answerable : IsAnswerable .title := .inr (by decide)

/-! ## What is shown wherever it is printed -/

theorem isSome_shown? {line : String} (h : (plain? line).isSome = true) (m : Machine) :
    (m.shown? line).isSome = true := by
  unfold Machine.shown?
  split
  · rfl
  · exact h

theorem isSome_alert {f : Failure} (h : Plain f.message) (hf : (report f).isExpected = false) :
    (plain? (alert f)).isSome = true := by
  have hlabel : (report f).label = "Error" := by
    revert hf
    unfold report
    split
    · exact nofun
    · split
      · exact nofun
      · exact fun _ => rfl
    · exact nofun
    · split
      · exact nofun
      · exact fun _ => rfl
    all_goals exact fun _ => rfl
  have hstart : Leaves (red ++ "[!] Error:" ++ plainStyle).toList "[!] Error:".toList := by
    have hlabel : Leaves "[!] Error:".toList "[!] Error:".toList :=
      leaves_plain (List.all_eq_true.mp (by decide))
    simpa only [String.toList_append, List.nil_append, List.append_nil] using
      (leaves_red.append hlabel).append leaves_plainStyle
  have halert : alert f =
      String.ofList (red ++ "[!] Error:" ++ plainStyle).toList ++ (" " ++ f.message) := by
    rw [alert, hlabel, String.ofList_toList, ← String.append_assoc]
    rfl
  rw [halert]
  exact isSome_plain? hstart (plain_append.mpr ⟨by decide, h⟩)

theorem plain_kindRows : ∀ row ∈ kindRows, ∀ t ∈ row, Plain t := by
  have hdescription : ∀ k ∈ Kind.registered, Plain k.description := by decide
  have hlevel (l : Level) : Plain (l.name.map Char.toLower) := by cases l <;> decide +kernel
  have hmethod (m : LearningMethod) : Plain m.title := by cases m <;> decide
  intro row hrow
  obtain ⟨k, hk, rfl⟩ := List.mem_map.mp hrow
  have hk : k ∈ Kind.registered := List.mem_mergeSort.mp hk
  have hname : Plain k.name := List.all_eq_true.mp (Kind.names_plain k hk)
  simp only [List.forall_mem_cons]
  exact ⟨hname, hdescription k hk, hlevel _, hmethod _, List.forall_mem_nil _⟩

theorem isSome_kindTable : ∀ line ∈ kindTable, (plain? line).isSome = true := by
  have hheading : ∀ line ∈ heading "Supported Event Kinds", (plain? line).isSome = true := by
    decide
  intro line hline
  rcases List.mem_append.mp hline with hline | hline
  · exact hheading line hline
  · have hplain := plain_lines (by decide) plain_kindRows line hline
    have hshown := isSome_plain? (leaves_plain (List.forall_mem_nil _)) hplain
    rwa [String.ofList_nil, String.empty_append] at hshown

end Program

end Detection
