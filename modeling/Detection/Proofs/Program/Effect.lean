import Detection.Proofs.Program.Exit

/-! # What comes of a run

But for its log and what it reports, a run comes to what the files it finds and its command line
tell: how it ends, what it prints, and the lines it adds to a file.
-/

namespace Detection.Program

open CommandLine (Request Outcome)
open Run

/-- What a file holds once lines are added, and one is made where there was none. -/
def appended (content : Option (List UInt8)) (lines : List String) : Option (List UInt8) :=
  some (content.getD [] ++ Utf8.encode (joined lines))

/-- What comes of a run besides its log and what it reports. -/
structure Effect where
  result : Except Failure Nat
  out : String
  /-- The place of a file and the lines that are added to it. -/
  added : Option (List String × List String)

namespace Effect

def ends (result : Except Failure Nat) : Effect := ⟨result, "", none⟩

def content (e : Effect) (place : List String) (before : Option (List UInt8)) :
    Option (List UInt8) :=
  match e.added with
  | some (target, lines) => if place = target then appended before lines else before
  | none => before

def printing (m : Machine) (lines : List String) : Effect where
  result := .ok (if (lines.map m.shown?).all Option.isSome then 0 else 1)
  out := joined (upToMissing (lines.map m.shown?))
  added := none

def delivering (m : Machine) (files : Files) (output : Option String) (lines : List String) :
    Effect :=
  match output with
  | none => printing m lines
  | some path =>
    match files.placeToWrite path with
    | .ok place => ⟨.ok 0, "", some (place, lines)⟩
    | .error _ => ends (.ok 1)

def rendering (m : Machine) (files : Files) (s : Settings) (r : Request) (path : String) : Effect :=
  match collected m files s r path with
  | .ok (_, lines) => delivering m files r.output lines
  | .error _ => ends (.ok 1)

def serving (m : Machine) (files : Files) (s : Settings) (r : Request) : Effect :=
  if r.listKinds then printing m kindTable
  else
    match r.eventsFile.filter (· ≠ "") with
    | none => ends (.ok 2)
    | some path => rendering m files s r path

def unsettled (m : Machine) (cause : SettingsError) : Effect :=
  ends <|
    if cause.isReported then
      if (m.shown? (alert (.settings cause))).isSome then .ok 1 else .error .title
    else .error (.settings cause)

def answering (m : Machine) (files : Files) (usual : Settings) : Outcome → Effect
  | .help => ⟨.ok 0, CommandLine.help, none⟩
  | .refused _ => ends (.ok 2)
  | .request r =>
    match settingsOf m files usual r with
    | .ok s => serving m files s r
    | .error cause => unsettled m cause

end Effect

namespace Launch

variable {l : Launch} {r : Request} {st st' : Session}

/-- What is to come of a run, as its files and its command line tell. -/
def effect (l : Launch) : Effect :=
  match l.opening with
  | .error f => .ends (.error f)
  | .ok (usual, files, _) => .answering l.machine files usual (Outcome.ofArguments l.args)

/-- The run ends like this, and the files are otherwise as it found them but for its log. -/
structure Leaves (l : Launch) (e : Effect) : Prop where
  result : l.ending.1 = e.result
  out : l.ending.2.out = e.out
  files : ∀ place, l.log? ≠ some place →
    l.ending.2.files.fileAt? place = e.content place (l.files.fileAt? place)

theorem leaves_begun {c : Except Failure Nat} (h : l.ending.1 = c) (hbegun : Begun l l.ending.2) :
    l.Leaves (.ends c) :=
  ⟨h, hbegun.out, hbegun.others⟩

theorem leaves_gives {x : Run Nat} {c : Except Failure Nat} (hbegun : Begun l st)
    (hend : l.ending = x.outcome st) (h : Gives x st c) : l.Leaves (.ends c) :=
  leaves_begun (by rw [hend, h.result]) (by rw [hend]; exact hbegun.calm h.calm)

theorem leaves_printed {c : Except Failure Nat} {text : String} (hbegun : Begun l st)
    (hend : l.ending = (c, st')) (hcalm : ({ st with out := st.out ++ text } : Session).Calm st') :
    l.Leaves ⟨c, text, none⟩ where
  result := by rw [hend]
  out := by rw [hend, hcalm.out, hbegun.out, String.empty_append]
  files place hplace := by
    rw [hend, hcalm.files.fileAt? (by rwa [hbegun.file?]), hbegun.others place hplace]
    rfl

/-! ### Reported failures -/

theorem reporting_answered {run : Run Nat} {P : Nat → Prop} {f : Failure} (quiet : Bool)
    (hends : Ends run P IsAnswerable) (h : run.outcome st = (.error f, st')) (hopen : st'.Open) :
    ∃ st'', (reporting quiet run).outcome st = (.ok 1, st'') ∧ st'.Calm st'' := by
  obtain ⟨c, st'', hreport, hc, hcalm⟩ := reporting_error quiet h hopen
  cases c with
  | error f' => exact ((ends_reporting quiet hends).error hreport).elim
  | ok n =>
    obtain rfl : n = 1 := hc
    exact ⟨st'', hreport, hcalm⟩

theorem gives_reporting_answered {run : Run Nat} {P : Nat → Prop} {f : Failure} (quiet : Bool)
    (hends : Ends run P IsAnswerable) (h : Gives run st (.error f)) :
    Gives (reporting quiet run) st (.ok 1) := by
  obtain ⟨st', hreport, hcalm⟩ := reporting_answered quiet hends h.outcome_eq h.calm.open
  exact gives_of_outcome hreport (h.calm.trans hcalm)

section Delivery

variable {lines : List String} {count : Nat} (hbegun : Begun l st)
  (hend : l.ending = (reporting r.quiet (finish r.output (count, lines))).outcome st)
include hbegun hend

theorem leaves_printing (houtput : r.output = none) : l.Leaves (.printing l.machine lines) := by
  have hdeliver := deliver_printed st lines
  rw [← hbegun.machine, Effect.printing]
  cases hall : (lines.map st.machine.shown?).all Option.isSome with
  | true =>
    rw [hall, if_pos rfl, ← houtput] at hdeliver
    obtain ⟨st', hfinish, hcalm⟩ := finish_delivered count hdeliver hbegun.isOpen
    rw [reporting_ok r.quiet hfinish] at hend
    exact leaves_printed hbegun hend hcalm
  | false =>
    rw [hall, if_neg Bool.false_ne_true, ← houtput] at hdeliver
    obtain ⟨st', hreport, hcalm⟩ := reporting_answered r.quiet (ends_finish r.output _)
      (finish_undelivered count hdeliver) hbegun.isOpen
    rw [hreport] at hend
    exact leaves_printed hbegun hend hcalm

variable {path : String} (houtput : r.output = some path)
include houtput

theorem leaves_added (hplace : l.log? ≠ some (Files.placeOf (.ofText path))) {place : List String}
    (h : st.files.placeToWrite path = .ok place) :
    l.Leaves ⟨.ok 0, "", some (place, lines)⟩ := by
  obtain ⟨st₁, hdeliver, hopen₁, hlog₁, hout₁, hfiles₁⟩ :=
    deliver_file hbegun.isOpen lines (by rwa [hbegun.file?]) h
  rw [← houtput] at hdeliver
  obtain ⟨st₂, hfinish, hcalm⟩ := finish_delivered count hdeliver hopen₁
  rw [reporting_ok r.quiet hfinish] at hend
  refine ⟨by rw [hend], by rw [hend, hcalm.out, hout₁, hbegun.out], fun other hother => ?_⟩
  rw [hend, hcalm.files.fileAt? (by rwa [hlog₁, hbegun.file?]),
    hfiles₁ other (by rwa [hbegun.file?]), hbegun.others other hother]
  rfl

theorem leaves_unopened {cause : WriteError} (h : st.files.placeToWrite path = .error cause) :
    l.Leaves (.ends (.ok 1)) := by
  have hgives := finish_unopened hbegun.isOpen count lines h
  rw [← houtput] at hgives
  exact leaves_gives hbegun hend (gives_reporting_answered r.quiet (ends_finish r.output _) hgives)

end Delivery

section

variable (hspares : l.Spares l.paths) {usual : Settings} {opened : Files} {log : Log}
  (hopening : l.opening = .ok (usual, opened, log))
include hspares hopening

theorem leaves_rendering (hr : l.request? = some r) {s : Settings} {path : String}
    (h : settingsOf l.machine opened usual r = .ok s) (hpath : r.eventsFile.filter (· ≠ "") = some path) :
    l.Leaves (.rendering l.machine opened s r path) := by
  obtain ⟨st, hbegun, hplace, hcollected, hend⟩ := ending_asked hr hspares hopening h hpath
  unfold Effect.rendering
  cases hc : collected l.machine opened s r path with
  | error f =>
    have hgives := render_uncollected hbegun.isOpen hplace (hcollected.trans hc)
    exact leaves_gives hbegun hend
      (gives_reporting_answered r.quiet (ends_render s r path) hgives)
  | ok c =>
    obtain ⟨count, lines⟩ := c
    obtain ⟨st', hcalm, hrender⟩ := render_collected hbegun.isOpen hplace (hcollected.trans hc)
    have hbegun' := hbegun.calm hcalm
    have hend' := hend.trans (reporting_congr r.quiet hrender)
    simp only [Effect.delivering]
    cases houtput : r.output with
    | none => exact leaves_printing hbegun' hend' houtput
    | some output =>
      have hspared := spares_output hr hspares houtput
      have hto : st'.files.placeToWrite output = opened.placeToWrite output :=
        (hbegun'.opened usual opened log hopening).placeToWrite hspared
      simp only
      cases hopens : opened.placeToWrite output with
      | ok place => exact leaves_added hbegun' hend' houtput hspared (hto.trans hopens)
      | error cause => exact leaves_unopened hbegun' hend' houtput (hto.trans hopens)

theorem leaves_serving {s : Settings} (hr : Outcome.ofArguments l.args = .request r)
    (h : settingsOf l.machine opened usual r = .ok s) : l.Leaves (.serving l.machine opened s r) := by
  obtain ⟨st, hbegun, hend⟩ := ending_settled hr hspares hopening h
  unfold Effect.serving
  cases hlist : r.listKinds with
  | true =>
    have hall : (kindTable.map st.machine.shown?).all Option.isSome = true := by
      rw [List.all_eq_true, List.forall_mem_map]
      exact fun line hline => isSome_shown? (isSome_kindTable line hline) _
    rw [respond_table s hlist, hall, if_pos rfl] at hend
    rw [if_pos rfl, Effect.printing, ← hbegun.machine, hall, if_pos rfl]
    refine leaves_printed hbegun hend (.refl ?_)
    exact hbegun.isOpen
  | false =>
    rw [if_neg Bool.false_ne_true]
    cases hpath : r.eventsFile.filter (· ≠ "") with
    | none => exact leaves_gives hbegun hend (respond_unasked hbegun.isOpen s hlist hpath)
    | some path =>
      exact leaves_rendering hspares hopening (request?_eq_some.mpr ⟨hr, hlist⟩) h hpath

theorem leaves_unsettled {cause : SettingsError} (hr : Outcome.ofArguments l.args = .request r)
    (h : settingsOf l.machine opened usual r = .error cause) :
    l.Leaves (.unsettled l.machine cause) := by
  obtain ⟨st, hbegun, hend⟩ := ending_opened hopening
  rw [← settingsOf_begun hr hspares hbegun hopening] at h
  have hgives := gives_unsettled hbegun.isOpen hr h
  rw [hbegun.machine] at hgives
  exact leaves_gives hbegun hend hgives

end

/-- A run comes to what its files and its command line tell. -/
theorem leaves_effect (hspares : l.Spares l.paths) : l.Leaves l.effect := by
  unfold effect
  cases hopening : l.opening with
  | error f =>
    obtain ⟨hend, hbegun⟩ := ending_unopened hopening
    exact leaves_begun (by rw [hend]) (by rw [hend]; exact hbegun)
  | ok opening =>
    obtain ⟨usual, opened, log⟩ := opening
    simp only
    cases hr : Outcome.ofArguments l.args with
    | help =>
      obtain ⟨st, hbegun, hend⟩ := ending_opened hopening
      simp only [answer, hr] at hend
      exact leaves_printed hbegun hend (.refl hbegun.isOpen)
    | refused cause =>
      obtain ⟨st, hbegun, hend⟩ := ending_opened hopening
      simp only [answer, hr] at hend
      exact leaves_gives hbegun hend (gives_refuse hbegun.isOpen cause)
    | request r =>
      simp only [Effect.answering]
      cases hs : settingsOf l.machine opened usual r with
      | ok s => exact leaves_serving hspares hopening hr hs
      | error cause => exact leaves_unsettled hspares hopening hr hs

end Launch

end Detection.Program
