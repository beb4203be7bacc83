import NamespaceOwnership.Number.Integer
import NamespaceOwnership.Probe.RequestRefusal
import NamespaceOwnership.Text.Blank
import NamespaceOwnership.Text.Pieces

/-!
# Request lines

A request for a path is sent as octets, each of which counts as the character of its number. Its first line
falls into words at white space, of which there have to be three at most: a method, the target, and the version
of the protocol. Several slashes at the beginning of a target count as one. The lines behind the first one are
headers up to an empty line, and what follows is not looked at. So a path with a line feed in it ends the first
line early.
-/
namespace NamespaceOwnership

open Text

structure RequestLine where
  line : String
  target : String
  deriving DecidableEq, Repr

namespace RequestLine

open Number (readInteger)
open RequestRefusal (longestLine mostHeaders)

def octets (s : String) : List Char :=
  s.toList.flatMap fun c => (String.utf8EncodeChar c).map fun b => Char.ofNat b.toNat

/-- The octets of the request for a path. -/
def ofPath (path : String) : List Char :=
  octets ("GET " ++ path ++ " HTTP/1.1\r\nHost: localhost\r\n\r\n")

/-- The words of a text, the first of which has begun with the characters given in reverse. -/
def wordsFrom (begun : List Char) : List Char → List (List Char)
  | [] => if begun.isEmpty then [] else [begun.reverse]
  | c :: s =>
    if isBlank c then (if begun.isEmpty then [] else [begun.reverse]) ++ wordsFrom [] s
    else wordsFrom (c :: begun) s

def words (s : List Char) : List (List Char) := wordsFrom [] s

/-- A target with a single slash at its beginning. -/
def singleSlash : List Char → List Char
  | '/' :: '/' :: rest => '/' :: rest.dropWhile (· == '/')
  | s => s

def withoutReturns (line : List Char) : List Char :=
  (line.reverse.dropWhile (· == '\r')).reverse

def number? (s : List Char) : Option Int := (readInteger (String.ofList s)).toOption

/-- What is wrong with a version, which is two integers, in any way in which an integer may be written. Those
from 2.0 on are not supported. -/
def versionError? (version : List Char) : Option RequestError :=
  let numbers := ("HTTP/".toList.isPrefixOf? version).map (pieces '.')
  match numbers.map (·.map number?) with
  | some [some major, some minor] =>
    if 2 < major ∨ major = 2 ∧ 0 ≤ minor then
      some (.unsupportedVersion (String.ofList (version.drop 5)))
    else none
  | _ => some (.badVersion (String.ofList version))

/-- What is wrong with the lines behind the first one, of which so many may be headers. -/
def headerError? : Nat → List (List Char) → Option RequestError
  | _, [] => none
  | left, line :: rest =>
    if longestLine < line.length + 1 then some .headerTooLong
    else if left = 0 then some .tooManyHeaders
    else if line = [] ∨ line = ['\r'] then none
    else headerError? (left - 1) rest

def read (path : String) : Except RequestRefusal RequestLine :=
  let lines := pieces '\n' (ofPath path)
  let first := lines.headD []
  if longestLine < first.length + 1 then .error ⟨.lineTooLong, ""⟩
  else
    let line := String.ofList (withoutReturns first)
    let found := words (withoutReturns first)
    match (found.drop 2).getLast?.bind versionError? with
    | some error => .error ⟨error, line⟩
    | none =>
      match found with
      | [_, target] | [_, target, _] =>
        match headerError? mostHeaders lines.tail with
        | some error => .error ⟨error, line⟩
        | none => .ok ⟨line, String.ofList (singleSlash target)⟩
      | _ => .error ⟨.malformed, line⟩

theorem length_wordsFrom_le (begun s : List Char) : (wordsFrom begun s).length ≤ s.length + 1 := by
  induction s generalizing begun with
  | nil =>
    unfold wordsFrom
    split
    · exact Nat.zero_le _
    · exact Nat.le_refl _
  | cons c s ih =>
    have fresh := ih []
    have longer := ih (c :: begun)
    unfold wordsFrom
    split
    · split <;>
        simp only [List.length_append, List.length_cons, List.length_nil] <;> omega
    · rw [List.length_cons]
      omega

end RequestLine
end NamespaceOwnership
