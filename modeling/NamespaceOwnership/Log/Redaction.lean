import NamespaceOwnership.Text.Blank
import NamespaceOwnership.Text.Word

/-!
# Redaction

Credentials in a text are replaced by a mark. Three rules are applied one after another: what follows
the word "bearer", what is assigned to a word such as "password", and access tokens known by their form.
A rule looks at each place of the text in turn and goes on behind what it has replaced. In the first two
rules the case of letters does not count, and a few letters beyond ASCII stand for the ASCII letter that
they fold to.
-/
namespace NamespaceOwnership.Redaction

open Text

def mark : List Char := "[REDACTED]".toList

/-- A place where a rule applies: so many characters are kept, the following ones are hidden. -/
structure Span where
  kept : Nat
  hidden : Nat
  hidden_pos : 0 < hidden

/-- A rule looks at the character before a place, if there is one, and at the text from there on. -/
abbrev Rule := Option Char → List Char → Option Span

private theorem drop_shorter (s : Span) (c : Char) (rest : List Char) :
    ((c :: rest).drop (s.kept + s.hidden)).length < (c :: rest).length := by
  have := s.hidden_pos
  simp only [List.length_drop, List.length_cons]
  omega

def apply (rule : Rule) (before : Option Char) : List Char → List Char
  | [] => []
  | c :: rest =>
    match rule before (c :: rest) with
    | none => c :: apply rule (some c) rest
    | some s =>
      (c :: rest).take s.kept ++ mark ++
        apply rule ((c :: rest).take (s.kept + s.hidden)).getLast?
          ((c :: rest).drop (s.kept + s.hidden))
termination_by text => text.length
decreasing_by
  · simp
  · exact drop_shorter s c rest

/-- The lower-case ASCII letter that a character stands for. -/
def fold (c : Char) : Char :=
  if c.toNat = 0x17F then 's'
  else if c.toNat = 0x212A then 'k'
  else if c.toNat = 0x130 ∨ c.toNat = 0x131 then 'i'
  else c.toLower

/-- What follows a word at the beginning of a text. -/
def afterWord? (word : List Char) (text : List Char) : Option (List Char) :=
  if (text.take word.length).map fold = word then some (text.drop word.length) else none

/-- Hides the characters of a class that stand at the beginning of `rest`, the tail of `text`. -/
def hide? (text rest : List Char) (inClass : Char → Bool) : Option Span :=
  if h : 0 < (rest.takeWhile inClass).length then
    some ⟨text.length - rest.length, (rest.takeWhile inClass).length, h⟩
  else none

def isBearerCharacter (c : Char) : Bool :=
  (fold c).isAlphanum || "._~+/=-".toList.contains c

def bearer : Rule := fun _ text => do
  let rest ← afterWord? "bearer".toList text
  guard (rest.head?.any isBlank)
  hide? text (trimLeft rest) isBearerCharacter

def assignedWords : List (List Char) :=
  ["authorization", "token", "api_token", "api-token", "apitoken", "password", "secret"].map
    String.toList

/-- No word goes on across this place. -/
def wordBoundary (before : Option Char) (text : List Char) : Bool :=
  before.any isWord != text.head?.any isWord

def isAssignedCharacter (c : Char) : Bool := !(isBlank c || c == ',' || c == ';')

def assignment : Rule := fun before text => do
  guard (wordBoundary before text)
  let rest ← assignedWords.findSome? fun word => do
    let rest ← afterWord? word text
    guard (!rest.head?.any isWord)
    return rest
  match trimLeft rest with
  | c :: value =>
    guard (c == ':' || c == '=')
    hide? text (trimLeft value) isAssignedCharacter
  | [] => none

def isTokenCharacter (c : Char) : Bool := c.isAlphanum || c == '_' || c == '.' || c == '-'

def accessToken : Rule := fun before text => do
  guard (wordBoundary before text)
  match text with
  | 'd' :: 't' :: '0' :: kind :: a :: b :: '.' :: rest =>
    guard (kind.isLower && a.isDigit && b.isDigit)
    guard (rest.head?.any isTokenCharacter)
    return ⟨0, 7 + (rest.takeWhile isTokenCharacter).length, by omega⟩
  | _ => none

def rules : List Rule := [bearer, assignment, accessToken]

def redact (text : List Char) : List Char := rules.foldl (fun t rule => apply rule none t) text

end NamespaceOwnership.Redaction
