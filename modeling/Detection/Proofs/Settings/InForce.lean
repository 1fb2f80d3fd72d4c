import Detection.Proofs.Files.Frame
import Detection.Proofs.Text.Utf8
import Detection.Yaml.Reader

/-! # The settings in force after any number of loads, reloads and reads

Loading fails in many ways: no file, a directory, bytes that are no text, a text that is no
document, a document that is no mapping. All of them leave the settings as they are. A load that
succeeds starts from the built-in settings again, so the last such load alone says what is in force.
-/

namespace Detection.Settings

/-! ## What a load supplies -/

/-- The mapping of a document. A value that counts as nothing stands for an empty one. -/
def mappingOf? : Value → Option Mapping
  | .dict m => some m
  | v => if v.truthy then none else some []

variable (reader : DocumentReader)

/-- The file at a path is text, the text is a document, and the document is a mapping. -/
def Holds (files : Files) (p : Path) (m : Mapping) : Prop :=
  ∃ text v, files.readText p = .ok text ∧ reader p.text text = .ok v ∧ mappingOf? v = some m

/-- The mapping that a load lays over the built-in settings, and the file it comes from. -/
inductive Supplies (files : Files) : Origin → Mapping → Option String → Prop
  | absent (h : files.isThere usualPath = false) : Supplies files .usual [] none
  | usual (m : Mapping) (h : Holds reader files usualPath m) :
      Supplies files .usual m (some usualPath.text)
  | named (path : String) (m : Mapping) (h : Holds reader files (.ofText path) m) :
      Supplies files (.named path) m (some (Path.ofText path).text)

variable {reader : DocumentReader} {files : Files} {origin : Origin} {m : Mapping}
  {source : Option String} {s : Settings}

theorem ofDocument_ok {path : String} {v : Value} :
    ofDocument path v = .ok s ↔ ∃ m, mappingOf? v = some m ∧ s = ofFile path m := by
  cases v with
  | dict m =>
    simp only [ofDocument, mappingOf?, Except.ok.injEq, Option.some.injEq, exists_eq_left']
    exact eq_comm
  | _ =>
    simp only [ofDocument, mappingOf?]
    split
    · simp only [reduceCtorEq, false_and, exists_false]
    · simp only [Except.ok.injEq, Option.some.injEq, exists_eq_left']
      exact eq_comm

theorem readFile_ok {p : Path} :
    readFile reader files p = .ok s ↔ ∃ m, Holds reader files p m ∧ s = ofFile p.text m := by
  simp only [readFile, bind_ok, mapError_ok, ofDocument_ok, Holds]
  constructor
  · rintro ⟨text, htext, v, hv, m, hm, rfl⟩
    exact ⟨m, ⟨text, v, htext, hv, hm⟩, rfl⟩
  · rintro ⟨m, ⟨text, v, htext, hv, hm⟩, rfl⟩
    exact ⟨text, htext, v, hv, m, hm, rfl⟩

theorem Holds.isThere {p : Path} (h : Holds reader files p m) : files.isThere p = true := by
  obtain ⟨text, -, htext, -⟩ := h
  unfold Files.readText at htext
  unfold Files.isThere
  split at htext
  · rename_i hfind
    rw [hfind]
  all_goals cases htext

theorem ofOrigin_ok : ofOrigin reader files origin = .ok s ↔
    ∃ m source, Supplies reader files origin m source ∧ s = ⟨Mapping.merge defaults m, source⟩ := by
  -- the usual file may be absent; one that is named must be there
  cases origin with
  | usual =>
    cases hthere : files.isThere usualPath with
    | false =>
      simp only [ofOrigin, load, hthere, Bool.false_eq_true, if_false, Except.ok.injEq]
      constructor
      · rintro rfl
        exact ⟨[], none, .absent hthere, rfl⟩
      · rintro ⟨_, _, hsupplies, rfl⟩
        cases hsupplies with
        | absent _ => rfl
        | usual m h => exact absurd h.isThere (by simp [hthere])
    | true =>
      simp only [ofOrigin, load, hthere, if_true, readFile_ok]
      constructor
      · rintro ⟨m, h, rfl⟩
        exact ⟨m, _, .usual m h, rfl⟩
      · rintro ⟨m, _, hsupplies, rfl⟩
        cases hsupplies with
        | absent h => simp [hthere] at h
        | usual _ h => exact ⟨m, h, rfl⟩
  | named path =>
    simp only [ofOrigin, reload]
    constructor
    · intro h
      split at h
      · obtain ⟨m, hholds, rfl⟩ := readFile_ok.mp h
        exact ⟨m, _, .named path m hholds, rfl⟩
      · cases h
    · rintro ⟨m, _, hsupplies, rfl⟩
      cases hsupplies with
      | named path _ h =>
        rw [if_pos h.isThere]
        exact readFile_ok.mpr ⟨m, h, rfl⟩

/-! ## One use of settings -/

/-- A load of this origin succeeds. -/
def Succeeds (reader : DocumentReader) (files : Files) (origin : Origin) : Prop :=
  ∃ m source, Supplies reader files origin m source

theorem use_supplied (h : Supplies reader files origin m source) :
    s.use reader (.replace files origin) = (⟨Mapping.merge defaults m, source⟩, .ok .none) := by
  have hload := ofOrigin_ok.mpr ⟨m, source, h, rfl⟩
  simp only [use, replace, hload]
  rfl

theorem use_failed (h : ¬Succeeds reader files origin) :
    ∃ cause, s.use reader (.replace files origin) = (s, .error cause) := by
  cases hload : ofOrigin reader files origin with
  | ok s' =>
    obtain ⟨m, source, hsupplies, -⟩ := ofOrigin_ok.mp hload
    exact absurd ⟨m, source, hsupplies⟩ h
  | error cause =>
    refine ⟨cause, ?_⟩
    simp only [use, replace, hload]
    rfl

theorem use_isOk_iff :
    (s.use reader (.replace files origin)).2.isOk ↔ Succeeds reader files origin := by
  by_cases h : Succeeds reader files origin
  · obtain ⟨m, source, hsupplies⟩ := id h
    simp only [use_supplied hsupplies, h]
    exact ⟨fun _ => trivial, fun _ => rfl⟩
  · obtain ⟨cause, huse⟩ := use_failed (s := s) h
    simp only [huse, h]
    exact ⟨nofun, nofun⟩

theorem use_error {u : Use} {cause : SettingsError} (h : (s.use reader u).2 = .error cause) :
    (s.use reader u).1 = s := by
  cases u with
  | replace files origin =>
    have hfails : ¬Succeeds reader files origin := by
      rw [← use_isOk_iff (s := s), h]
      exact nofun
    obtain ⟨cause', huse⟩ := use_failed (s := s) hfails
    rw [huse]
  | value path default => rfl
  | all => rfl
  | source => rfl

/-! ## Any number of uses -/

/-- Of all loads among the uses, the last one that succeeds supplies this. -/
def LastSupplied (reader : DocumentReader) (uses : List Use) (m : Mapping)
    (source : Option String) : Prop :=
  ∃ before files origin later, uses = before ++ .replace files origin :: later ∧
    Supplies reader files origin m source ∧
    ∀ files origin, .replace files origin ∈ later → ¬Succeeds reader files origin

theorem lastSupplied_self (before : List Use) (h : Supplies reader files origin m source) :
    LastSupplied reader (before ++ [.replace files origin]) m source :=
  ⟨before, files, origin, [], rfl, h, nofun⟩

/-- A use behind all others that is no load, or one that fails, is not the last that succeeds. -/
theorem LastSupplied.concat {uses : List Use} (h : LastSupplied reader uses m source) {u : Use}
    (hu : ∀ files origin, u = .replace files origin → ¬Succeeds reader files origin) :
    LastSupplied reader (uses ++ [u]) m source := by
  obtain ⟨before, files, origin, later, rfl, hsupplies, hlater⟩ := h
  refine ⟨before, files, origin, later ++ [u], by simp, hsupplies, fun files' origin' hmem => ?_⟩
  rcases List.mem_append.mp hmem with hmem | hmem
  · exact hlater files' origin' hmem
  · exact hu files' origin' (List.mem_singleton.mp hmem).symm

theorem LastSupplied.use {uses : List Use} (h : LastSupplied reader uses m source) (u : Use)
    (hs : s = ⟨Mapping.merge defaults m, source⟩) :
    ∃ m' source', LastSupplied reader (uses ++ [u]) m' source' ∧
      (s.use reader u).1 = ⟨Mapping.merge defaults m', source'⟩ := by
  cases u with
  | replace files origin =>
    by_cases hsucceeds : Succeeds reader files origin
    · obtain ⟨m', source', hsupplies⟩ := hsucceeds
      exact ⟨m', source', lastSupplied_self _ hsupplies, by rw [use_supplied hsupplies]⟩
    · obtain ⟨cause, huse⟩ := use_failed (s := s) hsucceeds
      refine ⟨m, source, h.concat ?_, by rw [huse, hs]⟩
      rintro _ _ ⟨⟩
      exact hsucceeds
  | value path default => exact ⟨m, source, h.concat nofun, hs⟩
  | all => exact ⟨m, source, h.concat nofun, hs⟩
  | source => exact ⟨m, source, h.concat nofun, hs⟩

theorem lastSupplied_after {first uses : List Use} (h : LastSupplied reader first m source)
    (hs : s = ⟨Mapping.merge defaults m, source⟩) :
    ∃ m' source', LastSupplied reader (first ++ uses) m' source' ∧
      s.after reader uses = ⟨Mapping.merge defaults m', source'⟩ := by
  induction uses generalizing first m source s with
  | nil => exact ⟨m, source, by rwa [List.append_nil], hs⟩
  | cons u uses ih =>
    obtain ⟨m₁, source₁, hlast, huse⟩ := h.use u hs
    obtain ⟨m₂, source₂, hlast', hafter⟩ := ih hlast huse
    exact ⟨m₂, source₂, by rwa [List.append_cons], hafter⟩

/-- From a first load that succeeds on, the settings in force are the built-in ones with the mapping
of the last load that succeeded laid over them, and the source is the file of that load. A use that
fails changes neither; what a load that succeeds leaves depends on nothing loaded before it. -/
theorem after_load {reader : DocumentReader} {files : Files} {s : Settings}
    (h : load reader files = .ok s) (uses : List Use) :
    (∃ m source, LastSupplied reader (.replace files .usual :: uses) m source ∧
      s.after reader uses = ⟨Mapping.merge defaults m, source⟩) ∧
    (∀ u cause, ((s.after reader uses).use reader u).2 = .error cause →
      ((s.after reader uses).use reader u).1 = s.after reader uses) ∧
    (∀ files origin, ((s.after reader uses).use reader (.replace files origin)).2.isOk ↔
      Succeeds reader files origin) ∧
    ∀ files origin m source, Supplies reader files origin m source →
      ((s.after reader uses).use reader (.replace files origin)).1 =
        ⟨Mapping.merge defaults m, source⟩ := by
  have hload : ofOrigin reader files .usual = .ok s := h
  obtain ⟨m, source, hsupplies, hs⟩ := ofOrigin_ok.mp hload
  exact ⟨lastSupplied_after (lastSupplied_self [] hsupplies) hs,
    fun _ _ => use_error, fun _ _ => use_isOk_iff, fun _ _ _ _ h => by rw [use_supplied h]⟩

def brightText : String := "display: \x7bcolor: true\x7d\n"

def shelf : Files := ⟨[(["c.yaml"], .file (Utf8.encode brightText)), (["d"], .directory)]⟩

def isBright (m : Mapping) : Bool :=
  Mapping.at? (.dict m) ["display", "color"] matches some (.flag true)

theorem holds_shelf : ∃ m, Holds Yaml.reader shelf (.ofText "c.yaml") m ∧ isBright m = true := by
  have hfind : shelf.find (.ofText "c.yaml") = .file ["c.yaml"] (Utf8.encode brightText) := by
    rw [Files.find_eq (by decide)]
    rfl
  have hlines : unifyLines brightText.toList = brightText.toList := by decide
  have htext : shelf.readText (.ofText "c.yaml") = .ok brightText.toList := by
    simp only [Files.readText, hfind, Utf8.decode_encode, hlines]
  have hbright : (Yaml.read brightText.toList).toOption.any
      (fun v => (mappingOf? v).any isBright) = true := by decide +kernel
  obtain ⟨v, hread, hv⟩ := exists_of_any hbright
  obtain ⟨m, hm, hbright⟩ := (Option.any_eq_true _ _).mp hv
  have hreader : Yaml.reader "c.yaml" brightText.toList = .ok v := by rw [Yaml.reader, hread]; rfl
  exact ⟨m, ⟨_, v, htext, hreader, hm⟩, hbright⟩

/-- A failed reload and a look at all settings leave nothing behind in those of the next file. -/
theorem after_load_shelf : load Yaml.reader shelf = .ok builtIn ∧ ∃ m, isBright m = true ∧
    ((builtIn.after Yaml.reader [.replace shelf (.named "d"), .all]).use Yaml.reader
      (.replace shelf (.named "c.yaml"))).1 = ⟨Mapping.merge defaults m, some "c.yaml"⟩ := by
  have hload : load Yaml.reader shelf = .ok builtIn := by
    rw [load, Files.isThere, Files.find_eq (by decide)]
    rfl
  have hpath : (Path.ofText "c.yaml").text = "c.yaml" := by decide
  obtain ⟨m, hholds, hbright⟩ := holds_shelf
  obtain ⟨-, -, -, hsupplied⟩ := after_load hload [.replace shelf (.named "d"), .all]
  refine ⟨hload, m, hbright, ?_⟩
  rw [hsupplied shelf _ m _ (.named "c.yaml" m hholds), hpath]

end Detection.Settings
