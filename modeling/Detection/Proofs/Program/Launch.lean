import Detection.Proofs.Program.Rendering

/-! # A run up to its output

A run opens its log, settles its settings and renders its events, and in all this it writes to no
file but the log and prints nothing. So when it fails on the way, nothing has come of it.
-/

namespace Detection

namespace Log

variable {files opened : Files} {s : Settings} {day : String} {log : Log} {place : List String}

/-! ## The files once a log is open -/

theorem openFile_ok (h : openFile files s day = .ok (opened, place)) :
    opened.fileAt? place ≠ none ∧
      ∀ other, other ≠ place → opened.fileAt? other = files.fileAt? other := by
  simp only [openFile, bind_ok, mapError_ok, pure, Except.pure, Except.ok.injEq,
    Prod.mk.injEq] at h
  obtain ⟨directory, -, made, hmade, -, -, place, hplace, rfl, rfl⟩ := h
  obtain ⟨-, hdirectory⟩ := Files.placeToWrite_ok hplace
  constructor
  · simp [Files.fileAt?_extend hdirectory]
  · intro other hother
    rw [Files.fileAt?_extend hdirectory, if_neg hother, Files.fileAt?_makeDirectories hmade]

theorem ofSettings_ok (h : ofSettings files s day = .ok (opened, log)) :
    Files.HasLog log.file? opened ∧
      ∀ other, log.file? ≠ some other → opened.fileAt? other = files.fileAt? other := by
  simp only [ofSettings, bind_ok] at h
  obtain ⟨-, -, least, -, h⟩ := h
  split at h
  · simp only [bind_ok, pure, Except.pure, Except.ok.injEq, Prod.mk.injEq] at h
    obtain ⟨⟨_, place⟩, hfile, rfl, rfl⟩ := h
    obtain ⟨hthere, hothers⟩ := openFile_ok hfile
    refine ⟨?_, fun other hother => hothers other fun heq => hother (by rw [heq])⟩
    rintro _ ⟨⟩
    exact hthere
  · simp only [pure, Except.pure, Except.ok.injEq, Prod.mk.injEq] at h
    obtain ⟨rfl, rfl⟩ := h
    exact ⟨nofun, fun _ _ => rfl⟩

end Log

namespace Program

open CommandLine (Request Outcome)
open Run

structure Launch where
  machine : Machine
  files : Files
  args : List String

namespace Launch

def ending (l : Launch) : Except Failure Nat × Session := start l.machine l.files l.args

def exit (l : Launch) : Nat := exitCode l.ending.1

/-- What the run begins with: the usual settings, and a log that may have a file of its own. -/
def opening (l : Launch) : Except Failure (Settings × Files × Log) := do
  let usual ← (Settings.load l.machine.reader l.files).mapError .settings
  let (files, log) ← (Log.ofSettings l.files usual l.machine.day).mapError .log
  pure (usual, files, log)

/-- The place of the log, if it is kept in a file. -/
def log? (l : Launch) : Option (List String) :=
  match l.opening with
  | .ok (_, _, log) => log.file?
  | .error _ => none

end Launch

/-- The run is still to print anything, and its files are as they were but for the log. -/
structure Begun (l : Launch) (st : Session) : Prop where
  machine : st.machine = l.machine
  out : st.out = ""
  file? : st.log.file? = l.log?
  isOpen : st.Open
  /-- Paths lead where they led once the log was open, which may have made directories. -/
  opened : ∀ usual opened log, l.opening = .ok (usual, opened, log) →
    opened.SameBut l.log? st.files
  others : ∀ place, l.log? ≠ some place → st.files.fileAt? place = l.files.fileAt? place

variable {l : Launch} {st st' : Session} {r : Request}

theorem Begun.calm (h : Begun l st) (hcalm : st.Calm st') : Begun l st' where
  machine := hcalm.machine.trans h.machine
  out := hcalm.out.trans h.out
  file? := hcalm.file?.trans h.file?
  isOpen := hcalm.open
  opened usual opened log hopening := by
    have hfiles := hcalm.files
    rw [h.file?] at hfiles
    exact (h.opened usual opened log hopening).trans hfiles
  others place hplace := by
    rw [hcalm.files.fileAt? (by rwa [h.file?]), h.others place hplace]

def Launch.initial (l : Launch) : Session :=
  { machine := l.machine, files := l.files, touched := [], log := ⟨30, false, none⟩, out := "",
    err := "" }

def answer (usual : Settings) (args : List String) : Run Nat :=
  match Outcome.ofArguments args with
  | .help => do
    Run.put .out CommandLine.help
    pure 0
  | .refused cause => refuse cause
  | .request r => do
    match ← settingsFor usual r with
    | .ok s => serve s r
    | .error cause =>
      if cause.isReported then tell (.settings cause) false
      else throw (.settings cause)

theorem run_eq (args : List String) :
    run args = get >>= fun st : Session =>
      Run.ofExcept .settings (Settings.load st.machine.reader st.files) >>= fun usual =>
        openLog usual >>= fun _ => answer usual args := rfl

theorem ending_unopened {f : Failure} (h : l.opening = .error f) :
    l.ending = (.error f, l.initial) ∧ Begun l l.initial := by
  have hlog : l.log? = none := by rw [Launch.log?, h]
  constructor
  · change (run l.args).outcome l.initial = _
    rw [run_eq, outcome_bind, outcome_get]
    simp only [outcome_bind]
    unfold Launch.opening at h
    cases husual : Settings.load l.machine.reader l.files with
    | error cause =>
      rw [husual] at h
      cases h
      simp only [Launch.initial, husual, Run.ofExcept, outcome_throw]
    | ok usual =>
      rw [husual, ok_mapError] at h
      simp only [bind, Except.bind] at h
      cases hlog : Log.ofSettings l.files usual l.machine.day with
      | error cause =>
        rw [hlog] at h
        cases h
        simp only [Launch.initial, husual, Run.ofExcept, outcome_pure, openLog, outcome_bind,
          outcome_get, hlog, outcome_throw]
      | ok opened =>
        rw [hlog] at h
        cases h
  · refine ⟨rfl, rfl, hlog.symm, fun _ h => absurd h.symm (Option.some_ne_none _),
      fun usual opened log hopening => ?_, fun _ _ => rfl⟩
    rw [h] at hopening
    cases hopening

def Launch.ready (l : Launch) (usual : Settings) : Session := ((openLog usual).outcome l.initial).2

theorem ending_ready {usual : Settings} {opened : Files} {log : Log}
    (h : l.opening = .ok (usual, opened, log)) :
    Begun l (l.ready usual) ∧ l.ending = (answer usual l.args).outcome (l.ready usual) := by
  have hplace : l.log? = log.file? := by rw [Launch.log?, h]
  have hopening := h
  simp only [Launch.opening, bind_ok, mapError_ok, pure, Except.pure, Except.ok.injEq,
    Prod.mk.injEq] at h
  obtain ⟨usual, hload, ⟨opened, log⟩, hlog, rfl, rfl, rfl⟩ := h
  obtain ⟨hthere, hothers⟩ := Log.ofSettings_ok hlog
  let touched := log.file?.toList.filter fun place => (l.files.entry? place).isNone
  let st : Session := { l.initial with files := opened, log, touched }
  -- opening the log touches the place of the log alone
  have hbegun : Begun l st := by
    refine ⟨rfl, rfl, hplace.symm, hthere, fun usual' opened' log' h => ?_, by rwa [hplace]⟩
    rw [hopening] at h
    cases h
    rw [hplace]
    exact .refl hthere
  obtain ⟨st', hnote, hcalm⟩ :=
    (gives_note hbegun.isOpen .debug "Logging system initialized").exists_outcome
  have hopened : (openLog usual).outcome l.initial = (.ok (), st') := by
    rw [← hnote]
    simp only [openLog, outcome_bind, outcome_get, Launch.initial, hlog, Run.ofExcept,
      outcome_pure]
    rfl
  have hready : l.ready usual = st' := by rw [Launch.ready, hopened]
  rw [hready]
  refine ⟨hbegun.calm hcalm, ?_⟩
  change (run l.args).outcome l.initial = _
  have hload : Settings.load l.initial.machine.reader l.initial.files = .ok usual := hload
  rw [run_eq, outcome_bind, outcome_get]
  simp only [outcome_bind]
  rw [hload, Run.ofExcept, outcome_pure]
  simp only [hopened]

theorem ending_opened {usual : Settings} {opened : Files} {log : Log}
    (h : l.opening = .ok (usual, opened, log)) :
    ∃ st, Begun l st ∧ l.ending = (answer usual l.args).outcome st :=
  ⟨l.ready usual, ending_ready h⟩

theorem opening_builtIn (h : l.files.isThere Settings.usualPath = false) :
    l.opening = .ok (Settings.builtIn, l.files, ⟨20, true, none⟩) := by
  rw [Launch.opening, Settings.load, h]
  rfl

theorem log?_builtIn (h : l.files.isThere Settings.usualPath = false) : l.log? = none := by
  rw [Launch.log?, opening_builtIn h]

/-! ## What is asked for -/

def setLevel (r : Request) : Run Unit :=
  if r.verbose then Run.setLeast Weight.debug.number
  else if r.quiet then Run.setLeast Weight.warning.number
  else pure ()

theorem gives_setLevel (hopen : st.Open) (r : Request) : Gives (setLevel r) st (.ok ()) := by
  unfold setLevel
  split
  · exact gives_setLeast hopen _
  · split
    · exact gives_setLeast hopen _
    · exact gives_pure hopen

/-- What a run does at the level it is set to. -/
def respond (s : Settings) (r : Request) : Run Nat :=
  if r.listKinds then do
    for line in kindTable do Run.print .out line
    pure 0
  else
    match r.eventsFile.filter (· ≠ "") with
    | none => refuse .noEventsFile
    | some path => reporting r.quiet (render s r path)

theorem setLevel_bind {α : Type} (r : Request) (rest : Run α) :
    (if r.verbose then Run.setLeast Weight.debug.number >>= fun _ => rest
      else if r.quiet then Run.setLeast Weight.warning.number >>= fun _ => rest
      else rest) = setLevel r >>= fun _ => rest := by
  unfold setLevel
  split
  · rfl
  · split
    · rfl
    · rw [pure_bind]

theorem serve_eq (s : Settings) (r : Request) :
    serve s r = setLevel r >>= fun _ => respond s r := by
  refine (setLevel_bind r _).trans (congrArg (setLevel r >>= ·) (funext fun _ => ?_))
  unfold respond
  cases r.eventsFile with
  | none => rfl
  | some path =>
    by_cases hpath : path = ""
    · subst hpath
      rfl
    · simp [Option.filter_some, hpath]

theorem serve_responds (hopen : st.Open) (s : Settings) (r : Request) :
    ∃ st', st.Calm st' ∧ (serve s r).outcome st = (respond s r).outcome st' := by
  rw [serve_eq]
  exact (gives_setLevel hopen r).exists_bind

theorem gives_refuse (hopen : st.Open) (cause : CommandLine.Refusal) :
    Gives (refuse cause) st (.ok 2) := by
  unfold refuse
  exact (gives_put_err hopen _).bind fun st' hcalm => gives_pure hcalm.open

theorem respond_table (s : Settings) (h : r.listKinds = true) :
    (respond s r).outcome st =
      (if (kindTable.map st.machine.shown?).all Option.isSome then .ok 0 else .error .title,
        { st with out := st.out ++ joined (upToMissing (kindTable.map st.machine.shown?)) }) := by
  rw [respond, if_pos h, outcome_bind, outcome_printAll]
  cases (kindTable.map st.machine.shown?).all Option.isSome <;> rfl

theorem respond_unasked (hopen : st.Open) (s : Settings) (hlist : r.listKinds = false)
    (h : r.eventsFile.filter (· ≠ "") = none) : Gives (respond s r) st (.ok 2) := by
  rw [respond, hlist, if_neg Bool.false_ne_true, h]
  exact gives_refuse hopen _

theorem respond_asked (s : Settings) (hlist : r.listKinds = false) {path : String}
    (h : r.eventsFile.filter (· ≠ "") = some path) :
    respond s r = reporting r.quiet (render s r path) := by
  rw [respond, hlist, if_neg Bool.false_ne_true, h]

section Answer

variable {usual : Settings} {args : List String}

theorem answer_settings {s : Settings} (hopen : st.Open)
    (hr : Outcome.ofArguments args = .request r) (h : settingsOf st.machine st.files usual r = .ok s) :
    ∃ st', st.Calm st' ∧ (answer usual args).outcome st = (respond s r).outcome st' := by
  have hsettings := gives_settingsFor hopen usual r
  rw [h] at hsettings
  simp only [answer, hr]
  obtain ⟨st₁, hcalm₁, hserve⟩ := hsettings.exists_bind
    (f := fun
      | .ok s => serve s r
      | .error cause =>
        if cause.isReported then tell (.settings cause) false
        else throw (.settings cause))
  obtain ⟨st₂, hcalm₂, hrespond⟩ := serve_responds hcalm₁.open s r
  exact ⟨st₂, hcalm₁.trans hcalm₂, hserve.trans hrespond⟩

theorem gives_unsettled {cause : SettingsError} (hopen : st.Open)
    (hr : Outcome.ofArguments args = .request r) (h : settingsOf st.machine st.files usual r = .error cause) :
    Gives (answer usual args) st
      (if cause.isReported then
        if (st.machine.shown? (alert (.settings cause))).isSome then .ok 1 else .error .title
      else .error (.settings cause)) := by
  have hsettings := gives_settingsFor hopen usual r
  rw [h] at hsettings
  simp only [answer, hr]
  refine hsettings.bind fun st₁ hcalm₁ => ?_
  simp only
  split
  · rw [← hcalm₁.machine]
    exact gives_tell hcalm₁.open _ _
  · exact gives_throw hcalm₁.open

end Answer

/-! ## Runs that render -/

namespace Launch

/-- What is asked for, if events are to be rendered. -/
def request? (l : Launch) : Option Request :=
  match Outcome.ofArguments l.args with
  | .request r => if r.listKinds then none else some r
  | _ => none

def paths (l : Launch) : List String :=
  match Outcome.ofArguments l.args with
  | .request r => r.config.toList ++ r.eventsFile.toList ++ r.output.toList
  | _ => []

/-- None of the paths names the file of the log. -/
def Spares (l : Launch) (paths : List String) : Prop :=
  ∀ path ∈ paths, l.log? ≠ some (Files.placeOf (.ofText path))

theorem request?_eq_some : l.request? = some r ↔
    Outcome.ofArguments l.args = .request r ∧ r.listKinds = false := by
  unfold request?
  split
  · rename_i r' hr
    rw [hr]
    cases hlist : r'.listKinds with
    | true =>
      simp only [if_true, reduceCtorEq, false_iff, Outcome.request.injEq]
      rintro ⟨rfl, hfalse⟩
      rw [hlist] at hfalse
      cases hfalse
    | false =>
      simp only [Bool.false_eq_true, if_false, Option.some.injEq, Outcome.request.injEq]
      constructor
      · rintro rfl
        exact ⟨rfl, hlist⟩
      · rintro ⟨rfl, -⟩
        rfl
  · rename_i hother
    simp only [reduceCtorEq, false_iff, not_and]
    intro hr
    exact absurd hr (hother r)

section Settled

variable (hr : Outcome.ofArguments l.args = .request r) (hspares : l.Spares l.paths)
include hr hspares

theorem settingsOf_begun {usual : Settings} {opened : Files} {log : Log} (hbegun : Begun l st)
    (hopening : l.opening = .ok (usual, opened, log)) :
    settingsOf st.machine st.files usual r = settingsOf l.machine opened usual r := by
  rw [hbegun.machine]
  refine sameBut_settingsOf (hbegun.opened usual opened log hopening) (fun path h => ?_) _ usual
  apply hspares
  simp [paths, hr, h]

theorem ending_settled {usual : Settings} {opened : Files} {log : Log} {s : Settings}
    (hopening : l.opening = .ok (usual, opened, log)) (h : settingsOf l.machine opened usual r = .ok s) :
    ∃ st, Begun l st ∧ l.ending = (respond s r).outcome st := by
  obtain ⟨st, hbegun, hend⟩ := ending_opened hopening
  rw [← settingsOf_begun hr hspares hbegun hopening] at h
  obtain ⟨st', hcalm, hrespond⟩ := answer_settings hbegun.isOpen hr h
  exact ⟨st', hbegun.calm hcalm, hend.trans hrespond⟩

end Settled

section Ending

variable (hr : l.request? = some r) (hspares : l.Spares l.paths)
include hr

theorem spares_output (hspares : l.Spares l.paths) {path : String} (h : r.output = some path) :
    l.log? ≠ some (Files.placeOf (.ofText path)) := by
  apply hspares
  simp [paths, (request?_eq_some.mp hr).1, h]

include hspares

theorem eventsOf_begun {usual : Settings} {opened : Files} {log : Log} {path : String}
    (hbegun : Begun l st) (hopening : l.opening = .ok (usual, opened, log))
    (h : r.eventsFile = some path) : eventsOf st.files path = eventsOf opened path := by
  apply (hbegun.opened usual opened log hopening).eventsOf
  apply hspares
  simp [paths, (request?_eq_some.mp hr).1, h]

theorem ending_asked {usual : Settings} {opened : Files} {log : Log} {s : Settings} {path : String}
    (hopening : l.opening = .ok (usual, opened, log)) (h : settingsOf l.machine opened usual r = .ok s)
    (hpath : r.eventsFile.filter (· ≠ "") = some path) :
    ∃ st, Begun l st ∧ st.log.file? ≠ some (Files.placeOf (.ofText path)) ∧
      collected st.machine st.files s r path = collected l.machine opened s r path ∧
      l.ending = (reporting r.quiet (render s r path)).outcome st := by
  obtain ⟨hargs, hlist⟩ := request?_eq_some.mp hr
  obtain ⟨st, hbegun, hend⟩ := ending_settled hargs hspares hopening h
  rw [respond_asked s hlist hpath] at hend
  have hgiven := (Option.filter_eq_some_iff.mp hpath).1
  refine ⟨st, hbegun, ?_, ?_, hend⟩
  · rw [hbegun.file?]
    apply hspares
    simp [paths, hargs, hgiven]
  · rw [collected, collected, hbegun.machine, eventsOf_begun hr hspares hbegun hopening hgiven]

end Ending

end Launch

end Program

end Detection
