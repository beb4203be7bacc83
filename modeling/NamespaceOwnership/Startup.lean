import NamespaceOwnership.Controller.Reconciliation
import NamespaceOwnership.Cluster.Wire

/-!
# Startup

The process sets the threshold of its log, reads its settings, notes what build it is, gets access to the
cluster, and builds the controller. It stops at the first of these that fails. Afterwards it either campaigns
for leadership or runs the control loop at once, until a signal asks it to shut down.
-/
namespace NamespaceOwnership

/-- Letters beyond ASCII with capitals within it, some of which are joined from several letters. -/
def joinedCapitals : List (Nat × String) :=
  [(0xDF, "SS"), (0x131, "I"), (0x17F, "S"), (0xFB00, "FF"), (0xFB01, "FI"), (0xFB02, "FL"),
   (0xFB03, "FFI"), (0xFB04, "FFL"), (0xFB05, "ST"), (0xFB06, "ST")]

def capitals (s : String) : String :=
  String.ofList (s.toList.flatMap fun c =>
    match joinedCapitals.lookup c.toNat with
    | some letters => letters.toList
    | none => [c.toUpper])

/-- The thresholds that have a name. -/
def thresholds : List (String × Nat) :=
  [("DEBUG", 10), ("INFO", 20), ("WARN", 30), ("WARNING", 30), ("ERROR", 40), ("CRITICAL", 50),
   ("FATAL", 50), ("NOTSET", 0)]

def defaultThreshold : Nat := 20

/-- The threshold before any was set. -/
def unsetThreshold : Nat := 30

/-- The text of the table of line formats. -/
def lineFormats : String :=
  "\x7b'%': (<class 'logging.PercentStyle'>, '%(levelname)s:%(name)s:%(message)s'), " ++
  "'\x7b': (<class 'logging.StrFormatStyle'>, '\x7blevelname\x7d:\x7bname\x7d:\x7bmessage\x7d'), " ++
  "'$': (<class 'logging.StringTemplateStyle'>, '$\x7blevelname\x7d:$\x7bname\x7d:$\x7bmessage\x7d')\x7d"

/-- The lowest level that is logged. Names that are unknown stand for the default, but the names of the line
format and of the table of such formats are taken for levels and refused. -/
def readThreshold (name : String) : Except Fault Nat :=
  match capitals name with
  | "BASIC_FORMAT" => .error (.invalid "Unknown level: '%(levelname)s:%(name)s:%(message)s'")
  | "_STYLES" => .error (.wrongKind ("Level not an integer or a valid string: " ++ lineFormats))
  | known => .ok ((thresholds.lookup known).getD defaultThreshold)

structure Build where
  version : String
  revision : String
  deriving DecidableEq, Repr

def Build.ofEnvironment (env : Environment) : Build :=
  ⟨(env.get? "APP_VERSION").getD "0.1.0", (env.get? "GIT_SHA").getD "unknown"⟩

/-- The ways to get access to a cluster, from the inside as a part of it or with the configuration of a
user. -/
inductive Access where
  | inCluster | userConfiguration
  deriving DecidableEq, Repr

namespace Access

def name : Access → String
  | .inCluster => "incluster"
  | .userConfiguration => "kubeconfig"

def loadedText : Access → String
  | .inCluster => "Loaded in-cluster Kubernetes configuration"
  | .userConfiguration => "Loaded local kubeconfig"

/-- The ways that are tried, and the first that works. -/
def load (works : Access → Bool) : List Access × Option Access :=
  if works .inCluster then ([.inCluster], some .inCluster)
  else
    ([.inCluster, .userConfiguration],
      if works .userConfiguration then some .userConfiguration else none)

end Access

inductive RunMode where
  | direct
  | election (leaseName : String)
  deriving DecidableEq, Repr

/-- Everything that the running process was set up with. -/
structure Setup where
  settings : Settings
  connection : Connection
  controller : Controller

/-- How far the startup came. -/
structure Startup where
  threshold : Nat := unsetThreshold
  build : Option Build := none
  setup : Except Fault Setup

namespace Startup

/-- The variables of the environment that are read. -/
def variableNames : List String :=
  ["LOG_LEVEL", "APP_VERSION", "GIT_SHA", "HOSTNAME", "POD_NAME", "OPERATOR_NAMESPACE",
   "RECONCILE_TIMEOUT_SECONDS", "UPDATE_RETRY_LIMIT", "RESYNC_PERIOD_SECONDS",
   "REQUEST_TIMEOUT_SECONDS", "HEALTH_PORT"] ++
  ["ENABLED", "IDENTITY", "LEASE_NAME", "LEASE_DURATION_SECONDS", "RENEW_DEADLINE_SECONDS",
   "RETRY_PERIOD_SECONDS", "CONTROLLER_STOP_TIMEOUT_SECONDS"].map Settings.electionVariable

def setUp (s : Settings) : Except Fault Setup := do
  let connection ← Connection.ofSettings s
  let controller ← Controller.ofSettings s
  return ⟨s, connection, controller⟩

def ofEnvironment (env : Environment) : Startup :=
  match readThreshold ((env.get? "LOG_LEVEL").getD "INFO") with
  | .error fault => { setup := .error fault }
  | .ok threshold =>
    match Settings.read env with
    | .error fault => { threshold, setup := .error fault }
    | .ok settings =>
      { threshold, build := some (Build.ofEnvironment env), setup := setUp settings }

/-- What there is to say about a startup before the loop begins. -/
def text (s : Startup) : String :=
  match s.setup with
  | .error fault => fault.kindName ++ ": " ++ fault.message
  | .ok setup =>
    let space := setup.settings.operatorNamespace
    let build := (s.build.map fun b => s!" {b.version} ({b.revision})").getD ""
    let how := if setup.settings.electionEnabled then
        "after election with lease " ++ setup.settings.leaseName
      else "without election"
    s!"Controller{build} for namespace {space} runs {how}"

end Startup

namespace Setup

def mode (s : Setup) : RunMode :=
  if s.settings.electionEnabled then .election s.settings.leaseName else .direct

/-- The signals that ask for a shutdown. -/
def signals : List Nat := [15, 2]

def signalText (signal : Nat) : String := s!"Received signal {signal}, shutting down"

def stoppedText : String := "Controller stopped"

/-- What is logged from the start of the loop to the end of the process, when signals come in. -/
def runLog (delivered : List Nat) : List (LogLevel × String) :=
  (delivered.filter signals.contains).map (fun s => (.info, signalText s)) ++ [(.info, stoppedText)]

def shutdownRequested (delivered : List Nat) : Bool := delivered.any signals.contains

end Setup
end NamespaceOwnership
