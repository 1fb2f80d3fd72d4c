import Detection.Proofs.CommandLine.Flags
import Detection.Proofs.Program.Output

/-! # Runs that differ in flags

How much a run tells is no part of what comes of it, and colours show on a terminal at most.
-/

namespace Detection.Program

open CommandLine (Request Outcome)
open Run

/-- The same comes of two runs; what they print is the same away from a terminal. -/
structure Effect.Agree (isTerminal : Bool) (e e' : Effect) : Prop where
  result : e'.result = e.result
  added : e'.added = e.added
  out : isTerminal = false → e'.out = e.out

theorem Effect.Agree.refl (isTerminal : Bool) (e : Effect) : e.Agree isTerminal e :=
  ⟨rfl, rfl, fun _ => rfl⟩

section Twins

variable {m m' : Machine} (hm : m' = { m with stamp := m'.stamp, trace := m'.trace })
  {r r' : Request} (hr : r.unadorned = r'.unadorned)

include hm

theorem shown?_twin : m'.shown? = m.shown? := by
  rw [hm]
  rfl

theorem agree_printing {lines lines' : List String}
    (h : lines.map Terminal.plain? = lines'.map Terminal.plain?) :
    (Effect.printing m lines).Agree m.isTerminal (.printing m' lines') := by
  unfold Effect.printing
  rw [shown?_twin hm]
  cases hterminal : m.isTerminal with
  | true =>
    have hall (lines : List String) : (lines.map m.shown?).all Option.isSome = true := by
      simp [Machine.shown?, hterminal]
    exact ⟨by rw [hall, hall], rfl, fun h => by cases h⟩
  | false =>
    have hshown : m.shown? = Terminal.plain? := by
      funext line
      simp [Machine.shown?, hterminal]
    rw [hshown, h]
    exact .refl _ _

include hr

theorem linesOf_twin (s : Settings) (color : Bool) (e : Event) :
    linesOf m s r color e = linesOf m' s r' color e := by
  rw [hm]
  exact Request.view_eq hr (fun r => linesOf m s r color e) fun _ => rfl

theorem collected_twin (files : Files) (s : Settings) (path : String) {output : String}
    (h : r.output = some output) : collected m' files s r' path = collected m files s r path := by
  have houtput : r'.output = some output :=
    (Request.view_eq hr Request.output fun _ => rfl).symm.trans h
  have hcoloured {r : Request} (h : r.output = some output) : coloured s r = false := by
    simp [coloured, h]
  unfold collected
  rw [hcoloured h, hcoloured houtput, funext fun e => linesOf_twin hm hr s false e]

theorem agree_rendering (files : Files) (s : Settings) (path : String) :
    (Effect.rendering m files s r path).Agree m.isTerminal (.rendering m' files s r' path) := by
  have houtput := Request.view_eq hr Request.output fun _ => rfl
  unfold Effect.rendering
  rw [← houtput]
  cases h : r.output with
  | some output =>
    rw [collected_twin hm hr files s path h]
    exact .refl _ _
  | none =>
    -- the lines themselves may differ in colours, which agree once no terminal shows them
    have hplain := collected_plain (linesOf_twin hm hr s) files path
    rcases cases_of_map_eq hplain with ⟨f, hc, hc'⟩ | ⟨c, c', hc, hc', hlines⟩
    · rw [hc, hc']
      exact .refl _ _
    · rw [hc, hc']
      exact agree_printing hm hlines

theorem agree_serving (files : Files) (s : Settings) :
    (Effect.serving m files s r).Agree m.isTerminal (.serving m' files s r') := by
  have hlist := Request.view_eq hr Request.listKinds fun _ => rfl
  have hevents := Request.view_eq hr Request.eventsFile fun _ => rfl
  unfold Effect.serving
  rw [← hlist, ← hevents]
  split
  · exact agree_printing hm rfl
  · split
    · exact .refl _ _
    · exact agree_rendering hm hr files s _

omit hr in
theorem agree_answering (files : Files) (usual : Settings) {o o' : Outcome} (h : o.Alike o') :
    (Effect.answering m files usual o).Agree m.isTerminal (.answering m' files usual o') := by
  cases h with
  | help => exact .refl _ _
  | refused cause cause' => exact .refl _ _
  | request hr =>
    rename_i r r'
    have hsettings : settingsOf m' files usual r' = settingsOf m files usual r := by
      rw [hm]
      exact (Request.view_eq hr (settingsOf m files usual) fun _ => rfl).symm
    simp only [Effect.answering, hsettings]
    cases settingsOf m files usual r with
    | ok s => exact agree_serving hm hr files s
    | error cause =>
      simp only [Effect.unsettled, shown?_twin hm]
      exact .refl _ _

end Twins

namespace Launch

/-- Two runs find the same files and are asked for the same, but for flags. Of the machine, just
what is put in the log may differ. -/
structure Twins (l l' : Launch) : Prop where
  machine : l'.machine = { l.machine with stamp := l'.machine.stamp, trace := l'.machine.trace }
  files : l'.files = l.files
  args : (Outcome.ofArguments l.args).Alike (Outcome.ofArguments l'.args)

variable {l l' : Launch}

namespace Twins

variable (h : l.Twins l')
include h

theorem opening : l'.opening = l.opening := by
  unfold Launch.opening
  rw [h.files, h.machine]

theorem log? : l'.log? = l.log? := by
  unfold Launch.log?
  rw [h.opening]

theorem paths : l'.paths = l.paths := by
  unfold Launch.paths
  have hargs := h.args
  generalize Outcome.ofArguments l.args = o at hargs ⊢
  generalize Outcome.ofArguments l'.args = o' at hargs ⊢
  cases hargs with
  | help => rfl
  | refused cause cause' => rfl
  | request hr =>
    exact Request.view_eq hr.symm
      (fun r => r.config.toList ++ r.eventsFile.toList ++ r.output.toList) fun _ => rfl

theorem effect : l.effect.Agree l.machine.isTerminal l'.effect := by
  unfold Launch.effect
  rw [h.opening]
  cases l.opening with
  | error f => exact .refl _ _
  | ok opening => exact agree_answering h.machine _ _ h.args

end Twins

end Launch

/-- Two runs that differ in flags end alike and leave the same files but for their log, and away
from a terminal they print the same. Command lines that are accepted ask for the same if they are
the same without flags. A display line with colours is the plain one once its codes are taken
out. -/
theorem presentation_unseen :
    (∀ l l' : Launch, l.Twins l' → l.Spares l.paths →
      l'.ending.1 = l.ending.1 ∧ l'.exit = l.exit ∧
        (∀ place, l.log? ≠ some place →
          l'.ending.2.files.fileAt? place = l.ending.2.files.fileAt? place) ∧
        (l.machine.isTerminal = false → l'.ending.2.out = l.ending.2.out)) ∧
      (∀ args args' r r', Outcome.ofArguments args = .request r →
        Outcome.ofArguments args' = .request r' →
          CommandLine.withoutFlags args = CommandLine.withoutFlags args' →
            (Outcome.ofArguments args).Alike (Outcome.ofArguments args')) ∧
      ∀ record e, Event.ofRecord record = .ok e → ∃ line, e.displayLine = .ok line ∧
        Terminal.plain? (e.colourise line) = Terminal.plain? line := by
  refine ⟨fun l l' h hspares => ?_, fun args args' r r' hr hr' hsame => ?_, fun record e he => ?_⟩
  · have hspares' : l'.Spares l'.paths := by
      intro path hpath
      rw [h.log?]
      exact hspares path (h.paths ▸ hpath)
    have hleaves := Launch.leaves_effect hspares
    have hleaves' := Launch.leaves_effect hspares'
    -- both runs leave what their effects say, and these agree
    have hagree := h.effect
    have hresult : l'.ending.1 = l.ending.1 := by
      rw [hleaves'.result, hagree.result, hleaves.result]
    refine ⟨hresult, congrArg exitCode hresult, fun place hplace => ?_, fun hterminal => ?_⟩
    · rw [hleaves'.files place (by rwa [h.log?]), hleaves.files place hplace, h.files,
        Effect.content, hagree.added, Effect.content]
    · rw [hleaves'.out, hagree.out hterminal, hleaves.out]
  · exact CommandLine.alike_of_withoutFlags hr hr' hsame
  · have hloaded := Event.loaded_of_ofRecord he
    obtain ⟨text, htext, -⟩ := Event.unbroken_pairsText hloaded
    have hline := Event.displayLine_of_pairsText htext
    exact ⟨_, hline, Event.plain?_colourise hloaded.registered hline⟩

def flaggedRun : Launch :=
  ⟨{ desk with stamp := "00:01" }, mailFiles, ["-v", "--color", "events.json", "--quiet"]⟩

theorem presentation_mail :
    printRun.Twins flaggedRun ∧ printRun.Spares printRun.paths ∧
      flaggedRun.exit = printRun.exit ∧ flaggedRun.ending.2.out = printRun.ending.2.out := by
  obtain ⟨hruns, hargs, -⟩ := presentation_unseen
  have htwins : printRun.Twins flaggedRun := ⟨rfl, rfl, hargs _ _ _ _ rfl rfl (by decide)⟩
  have hspares : printRun.Spares printRun.paths := Launch.spares_builtIn isThere_mail _
  obtain ⟨-, hexit, -, hout⟩ := hruns _ _ htwins hspares
  exact ⟨htwins, hspares, hexit, hout rfl⟩

end Detection.Program
