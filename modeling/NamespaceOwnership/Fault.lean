import NamespaceOwnership.Calendar
import NamespaceOwnership.Feature
import NamespaceOwnership.Number.Integer
import NamespaceOwnership.Selector.Error

/-!
# Failures

A fault is the reason why an operation did not return. Faults of the mapping itself, of a call to the
cluster, of a raw object with a wrong shape and of the settings are kept apart; `Fault.message` has the
wording of each.
-/
namespace NamespaceOwnership

/-- How a call breaks off without an answer of the API. -/
inductive TransportKind where
  | runtime | value | timeout | connection | key
  deriving DecidableEq, Repr

def TransportKind.name : TransportKind → String
  | .runtime => "RuntimeError"
  | .value => "ValueError"
  | .timeout => "TimeoutError"
  | .connection => "ConnectionError"
  | .key => "KeyError"

def TransportKind.all : List TransportKind := [.runtime, .value, .timeout, .connection, .key]

/-- A call is refused by the API, as a rule with a status, or breaks off. It cannot be made for a name of a kind
that nothing is named with, and its answer cannot be read if it holds a time that has no date. -/
inductive CallFailure where
  | refused (status : Option Int) (reason : Option String)
  | broken (kind : TransportKind) (text : String)
  | noName (kindName : String)
  | undated (error : CalendarError)
  deriving DecidableEq, Repr

def CallFailure.status? : CallFailure → Option Int
  | .refused status _ => status
  | .broken _ _ | .noName _ | .undated _ => none

def noNameText (kindName : String) : String := "unhashable type: " ++ Value.quotedText kindName

def CallFailure.message : CallFailure → String
  | .refused status reason =>
    "(" ++ ((status.map toString).getD "None") ++ ")\nReason: " ++ reason.getD "None" ++ "\n"
  | .broken .key text => Value.quotedText text
  | .broken _ text => text
  | .noName kindName => noNameText kindName
  | .undated error => error.message

/-- What is wrong with a raw object. -/
inductive ObjectError where
  | noFields (kindName : String)
  | nameless
  | flagNotBoolean (feature : Feature) (flag : Value)
  | badInteger (error : Number.IntegerError)
  | notANumber (kindName : String)
  | infinite
  | undefined
  | noName (kindName : String)
  | notIterable (kindName : String)
  deriving BEq, Repr

def ObjectError.message : ObjectError → String
  | .noFields kindName => Value.quotedText kindName ++ " object has no attribute 'get'"
  | .nameless => "DynaKube object is missing metadata.name"
  | .flagNotBoolean feature flag =>
    feature.name ++ ".enabled must be a boolean, got: " ++ flag.printed
  | .badInteger error => error.message
  | .notANumber kindName =>
    "int() argument must be a string, a bytes-like object or a real number, not " ++
      Value.quotedText kindName
  | .infinite => "cannot convert float infinity to integer"
  | .undefined => "cannot convert float NaN to integer"
  | .noName kindName => noNameText kindName
  | .notIterable kindName => Value.quotedText kindName ++ " object is not iterable"

/-- The value itself is invalid, rather than of a kind that has no such operation. -/
def ObjectError.isInvalidValue : ObjectError → Bool
  | .nameless | .flagNotBoolean _ _ | .badInteger _ | .undefined => true
  | _ => false

structure OwnershipConflict where
  namespaceName : String
  feature : Feature
  owner : String
  candidate : String
  deriving DecidableEq, Repr

def ownershipText (namespaceName featureName owner candidate : String) : String :=
  s!"namespace {namespaceName} is already owned by dynakube {owner} for feature " ++
    s!"{featureName}; refusing to map it to dynakube {candidate}"

def storeConflictText (namespaceName attempts : String) : String :=
  s!"giving up on namespace {namespaceName} after {attempts} conflicting update attempts"

inductive Fault where
  | selector (error : SelectorError)
  | ownership (conflict : OwnershipConflict)
  | namespaceMissing (namespaceName : String)
  | versionConflict (namespaceName : String) (expected : Option String)
  | storeConflict (namespaceName : String) (attempts : Int)
  | deadline (operation : String)
  | mapping (text : String)
  | call (failure : CallFailure)
  | object (error : ObjectError)
  | settings (text : String)
  | numberTooLarge
  | waitTooLong
  | calendar (error : CalendarError)
  | invalid (text : String)
  | wrongKind (text : String)
  deriving BEq, Repr

namespace Fault

def message : Fault → String
  | .selector error => error.message
  | .ownership c => ownershipText c.namespaceName c.feature.name c.owner c.candidate
  | .namespaceMissing namespaceName => s!"namespace {namespaceName} not found"
  | .versionConflict namespaceName expected =>
    s!"namespace {namespaceName} was modified concurrently (expected resourceVersion " ++
      expected.getD "None" ++ ")"
  | .storeConflict namespaceName attempts => storeConflictText namespaceName (toString attempts)
  | .deadline operation => s!"deadline exceeded during {operation}"
  | .mapping text => text
  | .call failure => failure.message
  | .object error => error.message
  | .settings text => text
  | .numberTooLarge => "int too large to convert to float"
  | .waitTooLong => "timestamp too large to convert to C _PyTime_t"
  | .calendar error => error.message
  | .invalid text | .wrongKind text => text

/-- The kind of a fault as it is reported beside, or in place of, an empty message. -/
def kindName : Fault → String
  | .selector _ => "SelectorParseError"
  | .ownership _ => "OwnershipConflictError"
  | .namespaceMissing _ => "NamespaceNotFoundError"
  | .versionConflict _ _ => "VersionConflictError"
  | .storeConflict _ _ => "StoreConflictError"
  | .deadline _ => "DeadlineExceededError"
  | .mapping _ => "MappingError"
  | .call (.refused _ _) => "ApiException"
  | .call (.broken kind _) => kind.name
  | .object (.noFields _) => "AttributeError"
  | .call (.noName _) | .object (.notANumber _) | .object (.noName _) | .object (.notIterable _)
  | .wrongKind _ => "TypeError"
  | .call (.undated _) | .object .infinite | .numberTooLarge | .waitTooLong | .calendar _ =>
    "OverflowError"
  | .object _ | .invalid _ => "ValueError"
  | .settings _ => "ConfigError"

/-- The status with which the API refused a call. -/
def status? : Fault → Option Int
  | .call failure => failure.status?
  | _ => none

/-- A call was refused, be it with a status or without one. -/
def isRefusal : Fault → Bool
  | .call (.refused _ _) => true
  | _ => false

/-- The text shown for a fault: its message, or its kind where the message is empty. -/
def summary (f : Fault) : String := if f.message = "" then f.kindName else f.message

end Fault
end NamespaceOwnership
