import NamespaceOwnership.Metrics.Exposition
import NamespaceOwnership.Probe.RequestLine

/-!
# Probes

The controller answers requests over HTTP about its health: whether it is alive, whether it has finished its
first resync and leads, whether it leads, and what its metrics are. Targets are compared exactly. Each request
is logged with its first line; one that is refused is answered with a page.
-/
namespace NamespaceOwnership

inductive ProbeBody where
  | text (s : String)
  | metrics (lines : List String)
  | page (s : String)
  deriving DecidableEq, Repr

structure ProbeReply where
  status : Nat
  body : ProbeBody
  deriving DecidableEq, Repr

namespace Probe

def contentType : ProbeBody → String
  | .text _ => "text/plain"
  | .metrics _ => "text/plain; version=1.0.0; charset=utf-8"
  | .page _ => "text/html;charset=utf-8"

private def flag (b : Bool) : String := if b then "true" else "false"

/-- Without an election the replica counts as leader. -/
def leads (leader : Option Bool) : Bool := leader.getD true

def readiness (synced : Bool) (leader : Option Bool) : ProbeReply :=
  ⟨if synced && leads leader then 200 else 503,
    .text s!"synced={flag synced} leader={flag (leads leader)}"⟩

def leadership (leader : Option Bool) : ProbeReply :=
  if leads leader then ⟨200, .text "ok"⟩ else ⟨503, .text "not leader"⟩

def reply (synced : Bool) (leader : Option Bool) (metrics : Metrics) (target : String) : ProbeReply :=
  match target with
  | "/healthz" => ⟨200, .text "ok"⟩
  | "/readyz" => readiness synced leader
  | "/leadz" => leadership leader
  | "/metrics" => ⟨200, .metrics metrics.lines⟩
  | _ => ⟨404, .text "not found"⟩

/-- The line that is logged for a request. -/
def requestText (line : String) (status : Nat) : String := s!"\"{line}\" {status} -"

/-- The reply to a request for a path, and the lines that are logged for it. -/
def serve (synced : Bool) (leader : Option Bool) (metrics : Metrics) (path : String) :
    ProbeReply × List String :=
  match RequestLine.read path with
  | .ok request =>
    let answer := reply synced leader metrics request.target
    (answer, [requestText request.line answer.status])
  | .error refusal =>
    (⟨refusal.status, .page refusal.page⟩, [refusal.text, requestText refusal.line refusal.status])

end Probe
end NamespaceOwnership
