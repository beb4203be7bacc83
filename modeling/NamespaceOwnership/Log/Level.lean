/-!
# Levels of log lines
-/
namespace NamespaceOwnership

inductive LogLevel where
  | debug | info | warning | error | critical
  deriving DecidableEq, Repr

def LogLevel.name : LogLevel → String
  | .debug => "DEBUG"
  | .info => "INFO"
  | .warning => "WARNING"
  | .error => "ERROR"
  | .critical => "CRITICAL"

/-- The name under which a level is shown, since two of them have a second name. -/
def LogLevel.shownName (name : String) : String :=
  if name = "FATAL" then LogLevel.critical.name
  else if name = "WARN" then LogLevel.warning.name
  else name

end NamespaceOwnership
