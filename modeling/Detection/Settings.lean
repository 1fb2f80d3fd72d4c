import Detection.Mapping
import Detection.Text.Split

/-! # Settings: the built-in ones, and those of a file laid over them -/

namespace Detection

structure Settings where
  values : Mapping
  /-- The file they come from, if they are not the built-in ones. -/
  source : Option String

namespace Settings

def defaults : Mapping :=
  let text (s : String) := Value.text s
  [(text "logging", Mapping.record
      [("level", text "INFO"), ("console_output", .flag true), ("file_output", .flag false),
        ("max_log_size_mb", .int 10), ("backup_count", .int 5)]),
    (text "paths", Mapping.record [("logs_dir", text "logs")]),
    (text "syslog", Mapping.record
      [("hostname", .none), ("app_name", text "eventrender"), ("procid", .none),
        ("facility", text "local0"),
        ("severity_by_level", Mapping.record
          [("low", text "notice"), ("medium", text "warning"), ("high", text "error")])]),
    (text "display", Mapping.record [("color", .flag false)])]

def builtIn : Settings := ⟨defaults, none⟩

def ofFile (path : String) (m : Mapping) : Settings := ⟨Mapping.merge defaults m, some path⟩

def names (path : String) : List String := (Text.split '.' path.toList).map String.ofList

def get (s : Settings) (path : String) (default : Value) : Value :=
  (Mapping.at? (.dict s.values) (names path)).getD default

end Settings

end Detection
