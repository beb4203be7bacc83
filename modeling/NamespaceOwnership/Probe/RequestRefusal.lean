import NamespaceOwnership.Text.Quoted

/-!
# Refused requests

A request that breaks a rule of its form is refused before its target is looked at. A refusal has a status, a
reason and an explanation, and is answered with a page that shows all three.
-/
namespace NamespaceOwnership

open Text

inductive RequestError where
  | malformed
  | lineTooLong
  | badVersion (version : String)
  | unsupportedVersion (number : String)
  | headerTooLong
  | tooManyHeaders
  deriving DecidableEq, Repr

/-- What is wrong with a request, and its first line as far as it was read. -/
structure RequestRefusal where
  error : RequestError
  line : String
  deriving DecidableEq, Repr

namespace RequestRefusal

/-- In octets, the end of the line included. -/
def longestLine : Nat := 65536

/-- Among them the empty line behind the headers. -/
def mostHeaders : Nat := 100

def status (r : RequestRefusal) : Nat :=
  match r.error with
  | .malformed | .badVersion _ => 400
  | .lineTooLong => 414
  | .unsupportedVersion _ => 505
  | .headerTooLong | .tooManyHeaders => 431

private def inQuotes (s : String) : String := String.ofList (quoted s.toList)

def reason (r : RequestRefusal) : String :=
  match r.error with
  | .malformed => "Bad request syntax (" ++ inQuotes r.line ++ ")"
  | .lineTooLong => "Request-URI Too Long"
  | .badVersion version => "Bad request version (" ++ inQuotes version ++ ")"
  | .unsupportedVersion number => "Invalid HTTP version (" ++ number ++ ")"
  | .headerTooLong => "Line too long"
  | .tooManyHeaders => "Too many headers"

def explanation (r : RequestRefusal) : String :=
  match r.error with
  | .malformed | .badVersion _ => "Bad request syntax or unsupported method"
  | .lineTooLong => "URI is too long"
  | .unsupportedVersion _ => "Cannot fulfill request"
  | .headerTooLong => s!"got more than {longestLine} bytes when reading header line"
  | .tooManyHeaders => s!"got more than {mostHeaders} headers"

private def escaped (s : String) : String :=
  String.ofList (s.toList.flatMap fun c =>
    if c = '&' then "&amp;".toList
    else if c = '<' then "&lt;".toList
    else if c = '>' then "&gt;".toList
    else [c])

/-- What the refusal looks like in a browser. -/
def page (r : RequestRefusal) : String :=
  "<!DOCTYPE HTML>\n<html lang=\"en\">\n    <head>\n        <meta charset=\"utf-8\">\n" ++
  "        <title>Error response</title>\n    </head>\n    <body>\n" ++
  "        <h1>Error response</h1>\n" ++
  s!"        <p>Error code: {r.status}</p>\n" ++
  "        <p>Message: " ++ escaped r.reason ++ ".</p>\n" ++
  s!"        <p>Error code explanation: {r.status} - " ++ escaped r.explanation ++ ".</p>\n" ++
  "    </body>\n</html>\n"

def text (r : RequestRefusal) : String := s!"code {r.status}, message " ++ r.reason

end RequestRefusal
end NamespaceOwnership
