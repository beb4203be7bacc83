import NamespaceOwnership.Text.Blank

/-!
# Flags in text form

A text switches a flag on if it is one of four words, whatever the case of its letters and the blanks
around it. No letter beyond ASCII turns into a letter of these words.
-/
namespace NamespaceOwnership.Text

def affirmatives : List String := ["1", "true", "yes", "on"]

def isAffirmative (s : String) : Bool :=
  affirmatives.contains (String.ofList ((trim s.toList).map Char.toLower))

def readFlag (text : Option String) (default : Bool) : Bool :=
  match text with
  | none => default
  | some s => isAffirmative s

end NamespaceOwnership.Text
