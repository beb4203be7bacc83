import NamespaceOwnership.Text.Pieces

/-!
# Label keys and label values

A label key is a name of at most 63 characters, behind an optional prefix of at most 253 characters
and a slash. Names and values consist of ASCII letters, digits, `-`, `_` and `.`, and begin and end
with a letter or digit; a value may be empty. A prefix is a DNS subdomain. One line feed at the very
end of a prefix, a name or a value is overlooked, though it counts as a character.
-/
namespace NamespaceOwnership.LabelSyntax

open Text

def withoutFinalLineFeed (s : List Char) : List Char :=
  if s.getLast? = some '\n' then s.dropLast else s

/-- A non-empty text over `inner` characters whose first and last character is an `outer` one. -/
def framed (outer inner : Char → Bool) (s : List Char) : Bool :=
  s.all inner && s.head?.any outer && s.getLast?.any outer

def isNameCharacter (c : Char) : Bool := c.isAlphanum || c == '-' || c == '_' || c == '.'

def isDomainEdge (c : Char) : Bool := c.isLower || c.isDigit

def isDomainCharacter (c : Char) : Bool := isDomainEdge c || c == '-'

def isName (s : List Char) : Bool :=
  s.length ≤ 63 && framed Char.isAlphanum isNameCharacter (withoutFinalLineFeed s)

def isValue (s : List Char) : Bool :=
  s.length ≤ 63 &&
    ((withoutFinalLineFeed s).isEmpty ||
      framed Char.isAlphanum isNameCharacter (withoutFinalLineFeed s))

def isSubdomain (s : List Char) : Bool :=
  s.length ≤ 253 &&
    (pieces '.' (withoutFinalLineFeed s)).all (framed isDomainEdge isDomainCharacter)

end NamespaceOwnership.LabelSyntax
