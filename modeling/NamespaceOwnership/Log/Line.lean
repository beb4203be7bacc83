import NamespaceOwnership.Json.Writer
import NamespaceOwnership.Log.Level
import NamespaceOwnership.Log.Redaction

/-!
# Log lines

A record is written as one JSON object on one line, with the texts of the message and of the failure
redacted.
-/
namespace NamespaceOwnership

structure LogRecord where
  time : String
  level : String
  logger : String
  message : String
  failure : Option String := none

def redacted (s : String) : String := String.ofList (Redaction.redact s.toList)

namespace LogRecord

/-- The kind of a failure with its text, where there is one. -/
def describeFailure (kind text : String) : String := if text = "" then kind else kind ++ ": " ++ text

def line (r : LogRecord) : String :=
  let failure := match r.failure with
    | some text => [("error", Value.text (redacted text))]
    | none => []
  Json.text (.fields ([("ts", .text r.time), ("level", .text r.level), ("logger", .text r.logger),
    ("msg", .text (redacted r.message))] ++ failure))

end LogRecord
end NamespaceOwnership
