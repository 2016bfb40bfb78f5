import TypedClient.Fault
import TypedClient.Json.Display
import TypedClient.Text.Digit

/-! The wording of faults that are reported with a text. -/
namespace TypedClient

def LoadFailure.message : LoadFailure → String
  | .unreadable path cause =>
    let (cause, quoted) := (cause.message, Json.showText path)
    s!"Cannot read spec file {path}: {cause}: {quoted}"
  | .unparsable path => s!"Cannot parse spec file {path}:"
  | .fetch url reason => s!"Cannot fetch spec from {url}: {reason}"
  | .unparsableAt url => s!"Cannot parse spec from {url}:"
  | .config path none => s!"Cannot load config file {path}:"
  | .config path (some reason) => s!"Cannot load config file {path}: {reason}"

/-- The text of a fault inside the report of a file in which it was met. -/
def Fault.explanation? : Fault → Option String
  | .unknownOutputKind quoted => some s!"Unknown output kind: {quoted}"
  | .numeral digits =>
    let limit := Text.digitLimit
    some (s!"Exceeds the limit ({limit} digits) for integer string conversion: value has {digits} " ++
      "digits; use sys.set_int_max_str_digits() to increase the limit")
  | _ => none

/-- The text of a fault that is reported with one. -/
def Fault.message? : Fault → Option String
  | .unknownOutputKind quoted => (Fault.unknownOutputKind quoted).explanation?
  | .unsupported cause => some cause.message
  | .load cause => some cause.message
  | .malformed label cause =>
    let cause := cause.message
    some s!"{label}: {cause}"
  | _ => none

end TypedClient
