import Detection.SettingsFile
import Detection.Yaml.Document

/-! # A reader of settings documents -/

namespace Detection.Yaml

def Problem.error : Problem → DocumentError
  | .malformed => .malformed ""
  | .codePoint => .noValue "chr() arg not in range(0x110000)"
  | .overflow => .other "OverflowError" "Python int too large to convert to C int"
  | .depth => .other "RecursionError" (Excess.calls "").message
  | .noValue message => .noValue message
  | .noFlag word => .other "KeyError" (Text.literal word)
  | .noDigits => .other "IndexError" "string index out of range"
  | .noTime => .other "AttributeError" "'NoneType' object has no attribute 'groupdict'"
  | .noReal => .other "OverflowError" "int too large to convert to float"

def reader : DocumentReader := fun _ cs => (read cs).mapError Problem.error

end Detection.Yaml
