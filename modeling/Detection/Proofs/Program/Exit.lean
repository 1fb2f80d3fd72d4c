import Detection.Proofs.Line.OneLine
import Detection.Proofs.Program.Launch
import Detection.Proofs.Program.Messages
import Detection.Yaml.Reader

/-! # What a run ends with

Rendering fails in many ways, and each failure is caught and told. The one thing that ends a run
without an exit code of its own are settings that are named and cannot be loaded: just some of their
errors are reported.
-/

namespace Detection

namespace Run

variable {α β : Type} {P : α → Prop} {P' : β → Prop} {Q Q' : Failure → Prop}

/-- Wherever it starts, a step ends with such a value or with such a failure. -/
structure Ends (x : Run α) (P : α → Prop) (Q : Failure → Prop) : Prop where
  ok : ∀ {st st' : Session} {a : α}, x.outcome st = (.ok a, st') → P a
  error : ∀ {st st' : Session} {f : Failure}, x.outcome st = (.error f, st') → Q f

theorem ends_pure {a : α} (h : P a) : Ends (pure a) P Q where
  ok h' := by
    rw [outcome_pure] at h'
    cases h'
    exact h
  error h' := by
    rw [outcome_pure] at h'
    cases h'

theorem ends_throw {f : Failure} (h : Q f) : Ends (throw f : Run α) P Q where
  ok h' := by
    rw [outcome_throw] at h'
    cases h'
  error h' := by
    rw [outcome_throw] at h'
    cases h'
    exact h

theorem ends_modify (g : Session → Session) : Ends (modify g : Run Unit) (fun _ => True) Q where
  ok _ := trivial
  error h := by
    rw [outcome_modify] at h
    cases h

theorem Ends.mono {x : Run α} {P₁ : α → Prop} {Q₁ : Failure → Prop} (h : Ends x P Q)
    (hP : ∀ a, P a → P₁ a) (hQ : ∀ f, Q f → Q₁ f) : Ends x P₁ Q₁ :=
  ⟨fun hx => hP _ (h.ok hx), fun hx => hQ _ (h.error hx)⟩

theorem Ends.bind {x : Run α} {g : α → Run β} (hx : Ends x P Q)
    (hg : ∀ a, P a → Ends (g a) P' Q) : Ends (x >>= g) P' Q := by
  have hcases {st st' : Session} {r : Except Failure β} (h : (x >>= g).outcome st = (r, st')) :
      (∃ a st₁, P a ∧ (g a).outcome st₁ = (r, st')) ∨ ∃ f, Q f ∧ r = .error f := by
    rw [outcome_bind] at h
    split at h
    · rename_i a st₁ heq
      exact .inl ⟨a, st₁, hx.ok heq, h⟩
    · rename_i f st₁ heq
      cases h
      exact .inr ⟨f, hx.error heq, rfl⟩
  constructor
  · intro st st' b h
    rcases hcases h with ⟨a, st₁, ha, hrest⟩ | ⟨f, -, heq⟩
    · exact (hg a ha).ok hrest
    · cases heq
  · intro st st' f h
    rcases hcases h with ⟨a, st₁, ha, hrest⟩ | ⟨f', hf, heq⟩
    · exact (hg a ha).error hrest
    · cases heq
      exact hf

theorem ends_get {g : Session → Run β} (h : ∀ st, Ends (g st) P' Q) : Ends (get >>= g) P' Q :=
  Ends.bind (P := fun _ => True) ⟨fun _ => trivial, fun h => by
    rw [outcome_get] at h
    cases h⟩ fun st _ => h st

theorem Ends.tryCatch {x : Run α} {h : Failure → Run α} (hx : Ends x P Q)
    (hh : ∀ f, Q f → Ends (h f) P Q') : Ends (tryCatch x h) P Q' := by
  have hcases {st st' : Session} {r : Except Failure α}
      (heq : (MonadExcept.tryCatch x h).outcome st = (r, st')) :
      (∃ a, P a ∧ r = .ok a) ∨ ∃ f st₁, Q f ∧ (h f).outcome st₁ = (r, st') := by
    rw [outcome_tryCatch] at heq
    split at heq
    · rename_i a st₁ hok
      cases heq
      exact .inl ⟨a, hx.ok hok, rfl⟩
    · rename_i f st₁ herror
      exact .inr ⟨f, st₁, hx.error herror, heq⟩
  constructor
  · intro st st' a heq
    rcases hcases heq with ⟨a', ha, hr⟩ | ⟨f, st₁, hf, hrest⟩
    · cases hr
      exact ha
    · exact (hh f hf).ok hrest
  · intro st st' f heq
    rcases hcases heq with ⟨a', ha, hr⟩ | ⟨f', st₁, hf, hrest⟩
    · cases hr
    · exact (hh f' hf).error hrest

theorem ends_ofExcept {ε : Type} {failure : ε → Failure} {r : Except ε α}
    (hok : ∀ a, r = .ok a → P a) (herror : ∀ e, r = .error e → Q (failure e)) :
    Ends (ofExcept failure r) P Q := by
  cases r with
  | ok a => exact ends_pure (hok a rfl)
  | error e => exact ends_throw (herror e rfl)

theorem ends_forIn {γ : Type} {xs : List γ} {body : γ → Run Unit}
    (h : ∀ x ∈ xs, Ends (body x) (fun _ => True) Q) :
    Ends (forIn xs PUnit.unit fun x _ => do
      body x
      pure (ForInStep.yield PUnit.unit)) (fun _ => True) Q := by
  induction xs with
  | nil => exact ends_pure trivial
  | cons x xs ih =>
    obtain ⟨hx, hxs⟩ := List.forall_mem_cons.mp h
    rw [List.forIn_cons]
    refine Ends.bind (P := (· = .yield PUnit.unit)) (hx.bind fun _ _ => ends_pure rfl) ?_
    rintro _ rfl
    exact ih hxs

theorem ends_mapM {γ : Type} {xs : List γ} {f : γ → Run α}
    (h : ∀ x ∈ xs, Ends (f x) (fun _ => True) Q) : Ends (xs.mapM f) (fun _ => True) Q := by
  induction xs with
  | nil => exact ends_pure trivial
  | cons x xs ih =>
    obtain ⟨hx, hxs⟩ := List.forall_mem_cons.mp h
    rw [List.mapM_cons]
    exact hx.bind fun _ _ => (ih hxs).bind fun _ _ => ends_pure trivial

/-! ## Notes and printed lines -/

theorem ends_noteWith (after : String) (n : Note) : Ends (noteWith after n) (fun _ => True) Q := by
  have hwrite (line : String) : Ends (write line) (fun _ => True) Q := by
    have hfile (log : Log) : Ends (toFile log line) (fun _ => True) Q := by
      unfold toFile
      split
      · exact ends_modify _
      · exact ends_pure trivial
    rw [write_eq]
    refine ends_get fun st => ?_
    split
    · exact (ends_modify _).bind fun _ _ => hfile st.log
    · exact hfile st.log
  refine ends_get fun st => ?_
  split
  · split
    · exact hwrite _
    · split
      · exact ends_modify _
      · exact ends_pure trivial
  · exact ends_pure trivial

theorem ends_note (weight : Weight) (text : String) : Ends (note weight text) (fun _ => True) Q :=
  ends_noteWith "" _

theorem ends_noteTraced (text : String) : Ends (noteTraced text) (fun _ => True) Q :=
  ends_get fun _ => ends_noteWith _ _

theorem ends_print {stream : Stream} {line : String}
    (h : (Terminal.plain? line).isSome = true ∨ Q .title) :
    Ends (print stream line) (fun _ => True) Q where
  ok _ := trivial
  error {st st' f} heq := by
    rw [outcome_print] at heq
    split at heq
    · rw [put, outcome_modify] at heq
      cases heq
    · rename_i hnone
      cases heq
      refine h.resolve_left fun hsome => ?_
      have hshown := Program.isSome_shown? hsome st.machine
      rw [hnone] at hshown
      cases hshown

end Run

namespace Program

open CommandLine (Request Outcome)
open Run

/-! ## Rendering -/

theorem ends_rendered {e : Event} {line : Except Event.RenderError String} {text : String}
    (h : line = .ok text) : Ends (rendered e line) (fun _ => True) IsAnswerable :=
  (ends_forIn fun _ _ => ends_note _ _).bind fun _ _ =>
    ends_ofExcept (fun _ _ => trivial) fun cause hcause => by
      rw [h] at hcause
      cases hcause

theorem ends_eventLines (s : Settings) (r : Request) (color : Bool) {e : Event} (he : e.Loaded) :
    Ends (eventLines s r color e) (fun _ => True) IsAnswerable := by
  obtain ⟨text, htext, -⟩ := Event.unbroken_pairsText he
  have hdisplay := ends_rendered (e := e) (Event.displayLine_of_pairsText htext)
  have hsyslog (h : Syslog.Header) := ends_rendered (e := e) (Event.syslogLine_of_pairsText htext h)
  have hlogged (shown : List String) : Ends (do
      let h ← Run.ofExcept id (header (← get).machine s r e)
      let line ← rendered e (e.syslogLine h)
      pure (shown ++ [line])) (fun _ => True) IsAnswerable := by
    refine ends_get fun st => ?_
    refine Ends.bind (P := fun _ => True)
      (ends_ofExcept (fun _ _ => trivial) fun _ => header_answerable) fun h _ => ?_
    exact (hsyslog h).bind fun _ _ => ends_pure trivial
  have hrest (shown : List String) : Ends (if r.form = .display then pure (shown ++ []) else do
      let h ← Run.ofExcept id (header (← get).machine s r e)
      let line ← rendered e (e.syslogLine h)
      pure (shown ++ [line])) (fun _ => True) IsAnswerable := by
    split
    · exact ends_pure trivial
    · exact hlogged shown
  unfold eventLines
  simp only [pure_bind]
  split
  · exact hrest []
  · exact hdisplay.bind fun _ _ => hrest _

theorem ends_deliver (lines : List String) (output : Option String) :
    Ends (deliver lines output) (fun _ => True) IsAnswerable := by
  cases output with
  | none => exact (ends_forIn fun _ _ => ends_print (.inr title_answerable)).bind fun _ _ =>
      ends_pure trivial
  | some path =>
    refine ends_get fun st => ?_
    refine Ends.bind (ends_ofExcept (fun _ _ => trivial) fun cause _ => write_answerable cause) ?_
    exact fun _ _ => (ends_modify _).bind fun _ _ => ends_note _ _

theorem ends_loadedEvents (path : String) :
    Ends (loadedEvents path) (fun events => ∀ e ∈ events, e.Loaded) IsAnswerable := by
  refine ends_get fun st => ?_
  have hresult : (loadEvents st.files path).2 = eventsOf st.files path := by
    unfold loadEvents
    cases eventsOf st.files path <;> rfl
  simp only [hresult]
  exact (ends_forIn fun _ _ => ends_note _ _).bind fun _ _ =>
    ends_ofExcept (fun _ => loaded_of_eventsOf) fun _ => events_answerable

theorem ends_finish (output : Option String) (c : Nat × List String) :
    Ends (finish output c) (· = 0) IsAnswerable :=
  (ends_deliver c.2 output).bind fun _ _ => (ends_note _ _).bind fun _ _ => ends_pure rfl

theorem ends_render (s : Settings) (r : Request) (path : String) :
    Ends (render s r path) (· = 0) IsAnswerable := by
  have hcollect : Ends (collect s r path) (fun _ => True) IsAnswerable := by
    refine (ends_note _ _).bind fun _ _ => ?_
    have hrest : Ends (do
        let events ← loadedEvents path
        let lines ← events.mapM (eventLines s r (coloured s r))
        pure (events.length, lines.flatten)) (fun _ => True) IsAnswerable := by
      refine (ends_loadedEvents path).bind fun events hevents => ?_
      refine Ends.bind (ends_mapM fun e he => ends_eventLines s r _ (hevents e he)) ?_
      exact fun _ _ => ends_pure trivial
    split
    · exact (ends_note _ _).bind fun _ _ => hrest
    · exact hrest
  rw [render_eq]
  exact hcollect.bind fun c _ => ends_finish r.output c

/-! ## Telling -/

theorem ends_tell {Q : Failure → Prop} {f : Failure} (quiet : Bool)
    (h : (Terminal.plain? (alert f)).isSome = true ∨ Q .title) : Ends (tell f quiet) (· = 1) Q := by
  have hprint : Ends (do
      if !quiet then Run.print .err (alert f)
      pure 1) (· = 1) Q := by
    simp only
    split
    · exact (ends_print h).bind fun _ _ => ends_pure rfl
    · exact ends_pure rfl
  unfold tell
  simp only
  split
  · exact (ends_note _ _).bind fun _ _ => hprint
  · exact (ends_noteTraced _).bind fun _ _ => hprint

theorem ends_reporting {run : Run Nat} {P : Nat → Prop} (quiet : Bool)
    (h : Ends run P IsAnswerable) :
    Ends (reporting quiet run) (fun n => P n ∨ n = 1) fun _ => False := by
  let Left (f : Failure) : Prop := (report f).isExpected = false ∧ Terminal.Plain f.message
  have hguarded : Ends (tryCatch run fun f =>
      if (report f).isExpected then tell f quiet else throw f) (fun n => P n ∨ n = 1) Left := by
    refine (h.mono (fun _ => .inl) fun _ => id).tryCatch fun f hf => ?_
    cases hexpected : (report f).isExpected with
    | true =>
      have htitle : Left .title := ⟨rfl, by decide⟩
      exact (ends_tell quiet (.inr htitle)).mono (fun _ => .inr) fun _ => id
    | false =>
      refine ends_throw ⟨hexpected, hf.resolve_left ?_⟩
      rw [hexpected]
      exact Bool.false_ne_true
  unfold reporting
  refine hguarded.tryCatch fun f hf => ?_
  exact (ends_tell quiet (.inl (isSome_alert hf.2 hf.1))).mono (fun _ => .inr) fun _ => id

theorem ends_respond (s : Settings) {r : Request}
    (h : r.listKinds = true ∨ (r.eventsFile.filter (· ≠ "")).isSome = true) :
    Ends (respond s r) (fun n => n = 0 ∨ n = 1) fun _ => False := by
  cases hlist : r.listKinds with
  | true =>
    rw [respond, if_pos hlist]
    exact (ends_forIn fun line hline => ends_print (.inl (isSome_kindTable line hline))).bind
      fun _ _ => ends_pure (.inl rfl)
  | false =>
    rw [hlist] at h
    obtain ⟨path, hpath⟩ := Option.isSome_iff_exists.mp (h.resolve_left Bool.false_ne_true)
    rw [respond_asked s hlist hpath]
    exact ends_reporting r.quiet (ends_render s r path)

/-! ## Whole runs -/

/-- A table of kinds or an events file is asked for. -/
def Asks (r : Request) : Prop :=
  r.listKinds = true ∨ (r.eventsFile.filter (· ≠ "")).isSome = true

namespace Launch

variable {l : Launch} {r : Request} {usual : Settings} {opened : Files} {log : Log}

theorem ending_unloaded {cause : SettingsError} (hopening : l.opening = .ok (usual, opened, log))
    (hr : Outcome.ofArguments l.args = .request r)
    (h : settingsOf l.machine (l.ready usual).files usual r = .error cause) :
    l.ending.1 = if cause.isReported then
      if (l.machine.shown? (alert (.settings cause))).isSome then .ok 1 else .error .title
    else .error (.settings cause) := by
  obtain ⟨hbegun, hend⟩ := ending_ready hopening
  rw [← hbegun.machine] at h
  rw [hend, (gives_unsettled hbegun.isOpen hr h).result, hbegun.machine]

theorem ending_loaded {s : Settings} (hopening : l.opening = .ok (usual, opened, log))
    (hr : Outcome.ofArguments l.args = .request r) (hasks : Asks r)
    (h : settingsOf l.machine (l.ready usual).files usual r = .ok s) :
    l.ending.1 = .ok 0 ∨ l.ending.1 = .ok 1 := by
  obtain ⟨hbegun, hend⟩ := ending_ready hopening
  rw [← hbegun.machine] at h
  obtain ⟨st, -, hrespond⟩ := answer_settings hbegun.isOpen hr h
  rw [hend, hrespond]
  have hends := ends_respond s hasks
  rcases hout : (respond s r).outcome st with ⟨n | f, st'⟩
  · exact (hends.error hout).elim
  · exact (hends.ok hout).imp (congrArg _) (congrArg _)

/-- Once settings and log are there, a run that is asked for a table or for events ends with one of
two exit codes, unless settings are named that cannot be loaded, and this is not told. Nothing else
comes out of it, whatever the files are and whatever reads the settings. -/
theorem exit_iff (hopening : l.opening = .ok (usual, opened, log))
    (hr : Outcome.ofArguments l.args = .request r) (hasks : Asks r) :
    ((l.ending.1 = .ok 0 ∨ l.ending.1 = .ok 1) ↔
      ∀ cause, settingsOf l.machine (l.ready usual).files usual r = .error cause →
        cause.isReported = true ∧ (l.machine.shown? (alert (.settings cause))).isSome = true) ∧
    ∀ f, l.ending.1 = .error f → ∃ cause,
      settingsOf l.machine (l.ready usual).files usual r = .error cause ∧
        (cause.isReported = false ∧ f = .settings cause ∨
          l.machine.shown? (alert (.settings cause)) = none ∧ f = .title) := by
  -- only settings that are named and do not load lead to another end
  cases h : settingsOf l.machine (l.ready usual).files usual r with
  | ok s =>
    have hloaded := ending_loaded hopening hr hasks h
    refine ⟨⟨fun _ => nofun, fun _ => hloaded⟩, fun f hf => ?_⟩
    rw [hf] at hloaded
    rcases hloaded with hloaded | hloaded <;> cases hloaded
  | error cause =>
    have hend := ending_unloaded hopening hr h
    simp only [Except.error.injEq, forall_eq', exists_eq_left']
    cases hreported : cause.isReported with
    | false =>
      rw [hreported, if_neg Bool.false_ne_true] at hend
      rw [hend]
      refine ⟨⟨?_, fun ⟨htrue, _⟩ => nomatch htrue⟩, fun f hf => .inl ⟨rfl, ?_⟩⟩
      · rintro (heq | heq) <;> cases heq
      · cases hf
        rfl
    | true =>
      rw [hreported, if_pos rfl] at hend
      cases hshown : l.machine.shown? (alert (.settings cause)) with
      | some text =>
        have hend : l.ending.1 = .ok 1 := by
          rw [hend, hshown]
          rfl
        rw [hend]
        refine ⟨⟨fun _ => ⟨rfl, rfl⟩, fun _ => .inr rfl⟩, fun f hf => ?_⟩
        cases hf
      | none =>
        have hend : l.ending.1 = .error .title := by
          rw [hend, hshown]
          rfl
        rw [hend]
        refine ⟨⟨?_, fun ⟨_, htrue⟩ => nomatch htrue⟩, fun f hf => .inr ⟨rfl, ?_⟩⟩
        · rintro (heq | heq) <;> cases heq
        · cases hf
          rfl

def shelf : Files := ⟨[(["e.json"], .file (Utf8.encode "[]")), (["d"], .directory)]⟩

def onShelf (args : List String) : Launch := ⟨⟨"host", 7, "00:00", "20240101", "", false, Yaml.reader⟩, shelf, args⟩

theorem isThere_shelf : shelf.isThere Settings.usualPath = false := by
  rw [Files.isThere, Files.find_eq (by decide)]
  rfl

/-- A directory in place of the events file, and another in place of the output, are told. -/
theorem exit_onShelf : (onShelf ["d", "-o", "d"]).ending.1 = .ok 0 ∨
    (onShelf ["d", "-o", "d"]).ending.1 = .ok 1 :=
  (exit_iff (r := { eventsFile := some "d", output := some "d" })
    (opening_builtIn isThere_shelf) rfl (.inr rfl)).1.mpr nofun

/-- A directory in place of the settings is not told: the run ends without an exit code. -/
theorem ending_onShelf : ∃ r, Outcome.ofArguments (onShelf ["e.json", "--config", "d"]).args =
      .request r ∧ Asks r ∧ (onShelf ["e.json", "--config", "d"]).opening.toOption.isSome ∧
    (onShelf ["e.json", "--config", "d"]).ending.1 = .error (.settings (.read (.directory "d"))) := by
  let r : Request := { eventsFile := some "e.json", config := some "d" }
  let m := (onShelf ["e.json", "--config", "d"]).machine
  have hopening : (onShelf ["e.json", "--config", "d"]).opening = _ := opening_builtIn isThere_shelf
  have hbegun := (ending_ready hopening).1
  have hfiles := hbegun.opened _ _ _ hopening
  rw [log?_builtIn isThere_shelf] at hfiles
  have hfind : shelf.find (.ofText "d") = .directory ["d"] := by
    rw [Files.find_eq (by decide)]
    rfl
  have hreload : settingsOf m shelf Settings.builtIn r = .error (.read (.directory "d")) := by
    change Settings.reload m.reader shelf "d" = _
    simp only [Settings.reload, Settings.readFile, Files.isThere, Files.readText, hfind]
    rfl
  have hsettings := (sameBut_settingsOf hfiles (fun _ _ h => Option.some_ne_none _ h.symm) m
    Settings.builtIn).trans hreload
  refine ⟨r, rfl, .inr rfl, by rw [hopening]; rfl, ?_⟩
  exact ending_unloaded hopening rfl hsettings

end Launch

end Program

end Detection
