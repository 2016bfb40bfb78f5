/-! What a run reports on its way. -/
namespace TypedClient

inductive Level where
  | debug
  | info
  | warning
deriving DecidableEq, Repr

def Level.name : Level → String
  | .debug => "DEBUG"
  | .info => "INFO"
  | .warning => "WARNING"

structure LogLine where
  level : Level
  text : String
deriving DecidableEq, Repr

/-- The level and the message, as one line. -/
def LogLine.print (line : LogLine) : String :=
  line.level.name ++ " " ++ line.text

end TypedClient
