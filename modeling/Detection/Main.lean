import Detection.Program
import Detection.Yaml.Reader
import Std.Time.DateTime.Timestamp

/-! # The program on a machine

Everything a run decides is in `Program.run`. Here the files it may look at are read beforehand, and
what it wrote is written when it is over.
-/

namespace Detection.Main

def textOf (place : List String) : String := Text.joinTexts "/" place

def entryAt (place : List String) : IO (Option Entry) := do
  let path := (← IO.currentDir) / textOf place
  if ← path.isDir then return some .directory
  if ← path.pathExists then
    return some (.file (← IO.FS.readBinFile path).toList)
  return none

def withPath (f : Files) (p : Path) : IO Files := do
  let mut f := f
  for place in Files.places (Files.base p) p.parts do
    if (f.entry? place).isNone then
      if let some entry ← entryAt place then
        f := ⟨f.entries ++ [(place, entry)]⟩
  return f

def withPaths (f : Files) (ps : List Path) : IO Files := ps.foldlM withPath f

def now : IO (Option Timestamp) := do
  let t ← Std.Time.Timestamp.now
  return (Timestamp.ofNanos t.toNanosecondsSinceUnixEpoch.val).toOption

def machine : IO Machine := do
  let host ← IO.FS.readFile "/proc/sys/kernel/hostname"
  let status ← IO.FS.readFile "/proc/self/stat"
  let (date, clock) := match ← now with
    | some t => (Timestamp.dateChars t.date, (Timestamp.clockChars t.clock).take 8)
    | none => ([], [])
  return {
    name := host.trimAscii.toString
    process := ((status.splitOn " ").headD "").toNat?.getD 0
    stamp := String.ofList (date ++ ' ' :: clock)
    day := String.ofList (date.filter (· ≠ '-'))
    trace := "(no trace is kept)"
    isTerminal := ← (← IO.getStdout).isTty
    reader := Yaml.reader }

def save (s : Session) : IO Unit := do
  for place in s.touched.eraseDups do
    let here ← IO.currentDir
    IO.FS.createDirAll (here / textOf place.dropLast)
    IO.FS.writeBinFile (here / textOf place) (ByteArray.mk (s.files.bytesAt place).toArray)

def run (args : List String) : IO UInt32 := do
  let m ← machine
  let usual ← withPath ⟨[]⟩ Settings.usualPath
  let files ← withPaths usual (Program.paths usual m args)
  let (result, s) := Program.start m files args
  (← IO.getStdout).putStr s.out
  (← IO.getStderr).putStr s.err
  save s
  match result with
  | .ok code => return code.toUInt32
  | .error f =>
    (← IO.getStderr).putStrLn f.message
    return 1

end Detection.Main

def main (args : List String) : IO UInt32 := Detection.Main.run args
