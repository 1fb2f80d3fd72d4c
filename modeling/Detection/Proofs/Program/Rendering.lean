import Detection.Proofs.Line.Colours
import Detection.Proofs.Program.Frame

/-! # The lines a run renders

What a run shows or writes is settled before it shows or writes any of it: settings, events, headers
and lines are all there, or there is nothing.
-/

namespace Detection

namespace Files

variable {log? : Option (List String)} {f g : Files}

/-! ## Reading past the log -/

theorem SameBut.readFile (h : SameBut log? f g) (reader : DocumentReader) {p : Path}
    (hplace : log? ≠ some (placeOf p)) :
    Settings.readFile reader g p = Settings.readFile reader f p := by
  simp only [Settings.readFile, h.readText hplace]

theorem SameBut.reload (h : SameBut log? f g) (reader : DocumentReader) {path : String}
    (hplace : log? ≠ some (placeOf (.ofText path))) :
    Settings.reload reader g path = Settings.reload reader f path := by
  simp only [Settings.reload, h.isThere hplace, h.readFile reader hplace]

theorem SameBut.eventsOf (h : SameBut log? f g) {path : String}
    (hplace : log? ≠ some (placeOf (.ofText path))) : eventsOf g path = eventsOf f path := by
  simp only [Detection.eventsOf, h.isThere hplace, h.readText hplace]

end Files

namespace Program

open CommandLine (Request)
open Run

/-! ## The lines of events -/

/-- Whether display lines have colours. They are for what is printed, never for a file. -/
def coloured (s : Settings) (r : Request) : Bool :=
  r.color.getD (s.get "display.color" (.flag false)).truthy && r.output.isNone

def shownLine (color : Bool) (e : Event) : Except Failure String := do
  let line ← e.displayLine.mapError (.render e.kind)
  pure (if color then e.colourise line else line)

def loggedLine (m : Machine) (s : Settings) (r : Request) (e : Event) : Except Failure String := do
  let h ← header m s r e
  (e.syslogLine h).mapError (.render e.kind)

def linesOf (m : Machine) (s : Settings) (r : Request) (color : Bool) (e : Event) :
    Except Failure (List String) :=
  match r.form with
  | .display => do pure [← shownLine color e]
  | .syslog => do pure [← loggedLine m s r e]
  | .both => do pure [← shownLine color e, ← loggedLine m s r e]

theorem loaded_of_eventsOf {files : Files} {path : String} {events : List Event}
    (h : eventsOf files path = .ok events) : ∀ e ∈ events, e.Loaded := by
  simp only [eventsOf] at h
  split at h
  · simp only [bind_ok, mapError_ok] at h
    obtain ⟨text, -, document, -, hevents⟩ := h
    exact Event.loaded_of_ofDocument hevents
  · cases h

theorem linesOf_plain {m : Machine} {s : Settings} {r : Request} {e : Event} (he : e.Loaded)
    (color : Bool) :
    (linesOf m s r color e).map (List.map Terminal.plain?) =
      (linesOf m s r false e).map (List.map Terminal.plain?) := by
  unfold linesOf
  cases hline : e.displayLine with
  | error cause =>
    have hshown (color : Bool) : shownLine color e = .error (.render e.kind cause) := by
      rw [shownLine, hline]
      rfl
    rw [hshown, hshown]
  | ok line =>
    -- colours come into display lines only
    let shown (color : Bool) : String := if color then e.colourise line else line
    have hshown (color : Bool) : shownLine color e = .ok (shown color) := by
      rw [shownLine, hline]
      rfl
    have hplain : Terminal.plain? (shown color) = Terminal.plain? (shown false) := by
      cases color
      · rfl
      · exact Event.plain?_colourise he.registered hline
    rw [hshown, hshown]
    cases r.form with
    | display => exact congrArg (fun text => Except.ok [text]) hplain
    | syslog => rfl
    | both =>
      cases loggedLine m s r e with
      | error cause => rfl
      | ok logged => exact congrArg (fun text => Except.ok [text, Terminal.plain? logged]) hplain

variable {st st' : Session} {s : Settings} {r : Request} {color : Bool}

theorem gives_rendered (hopen : st.Open) (e : Event) (line : Except Event.RenderError String) :
    Gives (rendered e line) st (line.mapError (.render e.kind)) := by
  unfold rendered
  refine (gives_forIn hopen fun text _ st' hopen' => gives_note hopen' _ _).bind fun st' hcalm => ?_
  exact gives_ofExcept hcalm.open _ _

theorem gives_header (hopen : st.Open) (e : Event) :
    Gives (ofExcept id (header st.machine s r e)) st (header st.machine s r e) := by
  have hgives := gives_ofExcept hopen id (header st.machine s r e)
  have hid : (header st.machine s r e).mapError id = header st.machine s r e := by
    cases header st.machine s r e <;> rfl
  rwa [hid] at hgives

theorem gives_eventLines (hopen : st.Open) (e : Event) :
    Gives (eventLines s r color e) st (linesOf st.machine s r color e) := by
  have hlogged {front : List String} {st' : Session} (hcalm : st.Calm st') :
      Gives (do
        let h ← ofExcept id (header (← get).machine s r e)
        let line ← rendered e (e.syslogLine h)
        pure (front ++ [line])) st'
        (do pure (front ++ [← loggedLine st.machine s r e])) := by
    rw [← hcalm.machine]
    apply gives_get
    simp only [loggedLine, bind_assoc]
    refine (gives_header hcalm.open e).bind_except fun h st'' hcalm' => ?_
    exact (gives_rendered hcalm'.open e _).bind_except fun line _ hcalm'' => gives_pure hcalm''.open
  unfold eventLines linesOf
  cases hform : r.form with
  | display =>
    simp only [shownLine, bind_assoc, pure_bind, List.append_nil, reduceCtorEq, if_false, if_true]
    exact (gives_rendered hopen e _).bind_except fun line st' hcalm => gives_pure hcalm.open
  | syslog =>
    simp only [pure_bind, reduceCtorEq, if_false, if_true]
    exact hlogged (.refl hopen)
  | both =>
    simp only [shownLine, bind_assoc, pure_bind, reduceCtorEq, if_false]
    exact (gives_rendered hopen e _).bind_except fun line st' hcalm => hlogged hcalm

theorem gives_mapM_eventLines (hopen : st.Open) (events : List Event) :
    Gives (events.mapM (eventLines s r color)) st (events.mapM (linesOf st.machine s r color)) := by
  induction events generalizing st with
  | nil => exact gives_pure hopen
  | cons e events ih =>
    rw [List.mapM_cons, List.mapM_cons]
    refine (gives_eventLines hopen e).bind_except fun lines st' hcalm => ?_
    rw [← hcalm.machine]
    exact (ih hcalm.open).bind_except fun rest st'' hcalm' => gives_pure hcalm'.open

theorem gives_loadedEvents (hopen : st.Open) (path : String) :
    Gives (loadedEvents path) st ((eventsOf st.files path).mapError .events) := by
  have hresult : (loadEvents st.files path).2 = eventsOf st.files path := by
    unfold loadEvents
    cases eventsOf st.files path <;> rfl
  unfold loadedEvents
  apply gives_get
  rw [← hresult]
  refine (gives_forIn hopen fun n _ st' hopen' => gives_note hopen' _ _).bind fun st' hcalm => ?_
  exact gives_ofExcept hcalm.open _ _

/-- The settings in force: those of a file that is named, or else the usual ones. -/
def settingsOf (m : Machine) (files : Files) (usual : Settings) (r : Request) :
    Except SettingsError Settings :=
  match r.config with
  | none | some "" => .ok usual
  | some path => Settings.reload m.reader files path

theorem gives_settingsFor (hopen : st.Open) (usual : Settings) (r : Request) :
    Gives (settingsFor usual r) st (.ok (settingsOf st.machine st.files usual r)) := by
  unfold settingsFor settingsOf
  cases r.config with
  | none => exact gives_pure hopen
  | some path =>
    by_cases hpath : path = ""
    · subst hpath
      exact gives_pure hopen
    · simp only
      apply gives_get
      exact gives_pure hopen

theorem sameBut_settingsOf {log? : Option (List String)} {f g : Files} (h : f.SameBut log? g)
    (hplace : ∀ path, r.config = some path → log? ≠ some (Files.placeOf (.ofText path)))
    (m : Machine) (usual : Settings) : settingsOf m g usual r = settingsOf m f usual r := by
  unfold settingsOf
  split
  · rfl
  · rfl
  · rename_i path _ hconfig
    exact h.reload m.reader (hplace path hconfig)

/-! ## Errors -/

def exitCode : Except Failure Nat → Nat
  | .ok n => n
  | .error _ => 1

theorem gives_tell (hopen : st.Open) (f : Failure) (quiet : Bool) : Gives (tell f quiet) st
    (if quiet || (st.machine.shown? (alert f)).isSome then .ok 1 else .error .title) := by
  have hprint (st' : Session) (hcalm : st.Calm st') : Gives (do
      if !quiet then Run.print .err (alert f)
      pure 1) st' (if quiet || (st.machine.shown? (alert f)).isSome then .ok 1
        else .error .title) := by
    cases quiet with
    | true => exact gives_pure hcalm.open
    | false =>
      have hgives := gives_print_err hcalm.open (alert f)
      rw [hcalm.machine] at hgives
      simp only [Bool.not_false, if_true, Bool.false_or]
      split
      · rw [if_pos ‹_›] at hgives
        exact hgives.bind fun st'' hcalm' => gives_pure hcalm'.open
      · rw [if_neg ‹_›] at hgives
        exact hgives.bind_error
  unfold tell
  simp only
  split
  · exact (gives_note hopen .error _).bind hprint
  · exact (gives_noteTraced hopen _).bind hprint

theorem tell_calm (hopen : st.Open) (f : Failure) (quiet : Bool) :
    ∃ c, exitCode c = 1 ∧ Gives (tell f quiet) st c := by
  refine ⟨_, ?_, gives_tell hopen f quiet⟩
  split <;> rfl

theorem reporting_ok {run : Run Nat} {st' : Session} {n : Nat} (quiet : Bool)
    (h : run.outcome st = (.ok n, st')) : (reporting quiet run).outcome st = (.ok n, st') := by
  simp only [reporting, outcome_tryCatch, h]

theorem reporting_expected {run : Run Nat} {st' : Session} {f : Failure} (quiet : Bool)
    (h : run.outcome st = (.error f, st')) (hf : (report f).isExpected = true) :
    (reporting quiet run).outcome st =
      (tryCatch (tell f quiet) (tell · quiet) : Run Nat).outcome st' := by
  simp only [reporting, outcome_tryCatch, h, hf, if_true]

theorem reporting_unexpected {run : Run Nat} {st' : Session} {f : Failure} (quiet : Bool)
    (h : run.outcome st = (.error f, st')) (hf : (report f).isExpected = false) :
    (reporting quiet run).outcome st = (tell f quiet).outcome st' := by
  simp only [reporting, outcome_tryCatch, h, hf, Bool.false_eq_true, if_false, outcome_throw]

theorem reporting_error {run : Run Nat} {st' : Session} {f : Failure} (quiet : Bool)
    (h : run.outcome st = (.error f, st')) (hopen : st'.Open) :
    ∃ c st'', (reporting quiet run).outcome st = (c, st'') ∧ exitCode c = 1 ∧ st'.Calm st'' := by
  obtain ⟨c, hc, htell⟩ := tell_calm hopen f quiet
  obtain ⟨st₁, htell, hcalm⟩ := htell.exists_outcome
  cases hf : (report f).isExpected with
  | false => exact ⟨c, st₁, (reporting_unexpected quiet h hf).trans htell, hc, hcalm⟩
  | true =>
    have hreport := reporting_expected quiet h hf
    rw [outcome_tryCatch, htell] at hreport
    cases c with
    | ok n => exact ⟨_, _, hreport, hc, hcalm⟩
    | error e =>
      obtain ⟨c, hc, htell'⟩ := tell_calm hcalm.open e quiet
      obtain ⟨st₂, htell', hcalm'⟩ := htell'.exists_outcome
      exact ⟨c, st₂, hreport.trans htell', hc, hcalm.trans hcalm'⟩

theorem reporting_congr {run run' : Run Nat} (quiet : Bool)
    (h : run.outcome st = run'.outcome st') :
    (reporting quiet run).outcome st = (reporting quiet run').outcome st' := by
  simp only [reporting, outcome_tryCatch, h]

/-! ## A run that renders -/

/-- The first half of a run that renders: all of its lines, and the number of events. -/
def collect (s : Settings) (r : Request) (path : String) : Run (Nat × List String) := do
  Run.note .info ("Rendering " ++ path ++ " as " ++ r.form.name)
  if s.source.isNone then Run.note .debug "config.yaml not found, using built-in defaults"
  let events ← loadedEvents path
  let lines ← events.mapM (eventLines s r (coloured s r))
  pure (events.length, lines.flatten)

/-- The second half, which has the lines delivered. -/
def finish (output : Option String) (collected : Nat × List String) : Run Nat := do
  deliver collected.2 output
  Run.note .info ("Rendered " ++ toString collected.1 ++ " events")
  pure 0

theorem render_eq (s : Settings) (r : Request) (path : String) :
    render s r path = collect s r path >>= finish r.output := by
  unfold render collect
  simp only [bind_assoc]
  congr 1
  funext _
  split
  · simp only [bind_assoc, pure_bind]
    rfl
  · simp only [bind_assoc, pure_bind]
    rfl

/-- The number of events in a file, and the lines of all of them in their order. -/
def collected (m : Machine) (files : Files) (s : Settings) (r : Request) (path : String) :
    Except Failure (Nat × List String) := do
  let events ← (eventsOf files path).mapError .events
  let lines ← events.mapM (linesOf m s r (coloured s r))
  pure (events.length, lines.flatten)

theorem collected_plain {m m' : Machine} {r' : Request}
    (h : ∀ color e, linesOf m s r color e = linesOf m' s r' color e) (files : Files)
    (path : String) :
    (collected m files s r path).map (·.2.map Terminal.plain?) =
      (collected m' files s r' path).map (·.2.map Terminal.plain?) := by
  unfold collected
  cases hevents : eventsOf files path with
  | error cause => rfl
  | ok events =>
    have hlines : ∀ e ∈ events,
        (linesOf m s r (coloured s r) e).map (List.map Terminal.plain?) =
          (linesOf m' s r' (coloured s r') e).map (List.map Terminal.plain?) := by
      intro e he
      have hloaded := loaded_of_eventsOf hevents e he
      rw [linesOf_plain hloaded, h, linesOf_plain hloaded (coloured s r')]
    have hview (x : Except Failure (List (List String))) :
        (x >>= fun lines => pure (events.length, lines.flatten)).map
            (·.2.map Terminal.plain?) = x.map fun lines => lines.flatten.map Terminal.plain? := by
      cases x <;> rfl
    exact (hview _).trans ((mapM_flatten_congr hlines).trans (hview _).symm)

theorem gives_collect (hopen : st.Open) {path : String}
    (hplace : st.log.file? ≠ some (Files.placeOf (.ofText path))) :
    Gives (collect s r path) st (collected st.machine st.files s r path) := by
  have hcollect (st' : Session) (hcalm : st.Calm st') : Gives (do
      let events ← loadedEvents path
      let lines ← events.mapM (eventLines s r (coloured s r))
      pure (events.length, lines.flatten)) st' (collected st.machine st.files s r path) := by
    unfold collected
    rw [← hcalm.files.eventsOf hplace, ← hcalm.machine]
    refine (gives_loadedEvents hcalm.open path).bind_except fun events st₁ hcalm₁ => ?_
    rw [← hcalm₁.machine]
    exact (gives_mapM_eventLines hcalm₁.open events).bind_except fun lines st₂ hcalm₂ =>
      gives_pure hcalm₂.open
  unfold collect
  refine (gives_note hopen _ _).bind fun st₁ hcalm₁ => ?_
  split
  · exact (gives_note hcalm₁.open _ _).bind fun st₂ hcalm₂ => hcollect st₂ (hcalm₁.trans hcalm₂)
  · exact (gives_pure hcalm₁.open).bind fun st₂ hcalm₂ => hcollect st₂ (hcalm₁.trans hcalm₂)

section Halves

variable {path : String} (hopen : st.Open)
  (hplace : st.log.file? ≠ some (Files.placeOf (.ofText path)))
include hopen hplace

theorem render_collected {c : Nat × List String}
    (h : collected st.machine st.files s r path = .ok c) :
    ∃ st', st.Calm st' ∧ (render s r path).outcome st = (finish r.output c).outcome st' := by
  have hcollect := gives_collect (s := s) (r := r) hopen hplace
  rw [h] at hcollect
  rw [render_eq]
  exact hcollect.exists_bind

theorem render_uncollected {f : Failure}
    (h : collected st.machine st.files s r path = .error f) :
    Gives (render s r path) st (.error f) := by
  have hcollect := gives_collect (s := s) (r := r) hopen hplace
  rw [h] at hcollect
  rw [render_eq]
  exact hcollect.bind_error

end Halves

/-! ## Delivery -/

section Delivery

variable {path : String}

theorem deliver_file (hopen : st.Open) (lines : List String)
    (hplace : st.log.file? ≠ some (Files.placeOf (.ofText path))) {place : List String}
    (h : st.files.placeToWrite path = .ok place) :
    ∃ st', (deliver lines (some path)).outcome st = (.ok (), st') ∧ st'.Open ∧
      st'.log.file? = st.log.file? ∧ st'.out = st.out ∧
      ∀ other, st.log.file? ≠ some other → st'.files.fileAt? other =
        if other = place then some ((st.files.fileAt? other).getD [] ++ Utf8.encode (joined lines))
        else st.files.fileAt? other := by
  obtain ⟨rfl, hdirectory⟩ := Files.placeToWrite_ok h
  obtain ⟨st₁, hextend, hopen₁, hlog, hout, hfiles⟩ :=
    outcome_extend hopen hplace hdirectory (joined lines)
  obtain ⟨st₂, hnote, hcalm⟩ := (gives_note hopen₁ .info
    ("Appended " ++ toString lines.length ++ " lines to " ++ path)).exists_outcome
  refine ⟨st₂, ?_, hcalm.open, hcalm.file?.trans (by rw [hlog]), hcalm.out.trans hout,
    fun other hother => ?_⟩
  · unfold deliver
    rw [joined] at hextend
    simp only [outcome_bind, outcome_get, h, Run.ofExcept, outcome_pure, hextend]
    exact hnote
  · rw [hcalm.files.fileAt? (by rwa [hlog]), hfiles, Files.fileAt?_extend hdirectory]
    split
    · rename_i heq
      rw [heq]
    · rfl

theorem deliver_printed (st : Session) (lines : List String) :
    (deliver lines none).outcome st =
      (if (lines.map st.machine.shown?).all Option.isSome then .ok () else .error .title,
        { st with out := st.out ++ joined (upToMissing (lines.map st.machine.shown?)) }) := by
  unfold deliver
  rw [outcome_bind, outcome_printAll]
  cases (lines.map st.machine.shown?).all Option.isSome <;> rfl

variable {output : Option String} {lines : List String}

theorem finish_delivered (count : Nat) (h : (deliver lines output).outcome st = (.ok (), st'))
    (hopen : st'.Open) :
    ∃ st'', (finish output (count, lines)).outcome st = (.ok 0, st'') ∧ st'.Calm st'' := by
  have hnote := (gives_note hopen .info ("Rendered " ++ toString count ++ " events")).bind
    (f := fun _ => pure 0) fun st'' hcalm => gives_pure hcalm.open
  obtain ⟨st'', hrest, hcalm⟩ := hnote.exists_outcome
  refine ⟨st'', ?_, hcalm⟩
  rw [finish, outcome_bind, h]
  exact hrest

theorem finish_undelivered {f : Failure} (count : Nat)
    (h : (deliver lines output).outcome st = (.error f, st')) :
    (finish output (count, lines)).outcome st = (.error f, st') := by
  rw [finish, outcome_bind, h]

theorem finish_unopened (hopen : st.Open) (count : Nat) (lines : List String) {cause : WriteError}
    (h : st.files.placeToWrite path = .error cause) :
    Gives (finish (some path) (count, lines)) st (.error (.write cause)) := by
  have hgives := gives_ofExcept hopen .write (st.files.placeToWrite path)
  rw [h] at hgives
  have hdeliver : Gives (deliver lines (some path)) st (.error (.write cause)) := by
    unfold deliver
    apply gives_get
    rw [h]
    exact hgives.bind_error
  exact hdeliver.bind_error

end Delivery

end Program

end Detection
