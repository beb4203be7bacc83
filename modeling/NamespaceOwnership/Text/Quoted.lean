import NamespaceOwnership.Text.Hex
import NamespaceOwnership.Text.Printable

/-!
# Quoted text in messages

A quoted text stands between single quotes, or between double quotes where it holds a single quote
and no double one. The mark and the backslash are escaped, and unprintable characters are written as
letters or as hexadecimal numerals of two, four or eight digits. `asciiOnly` writes everything beyond ASCII as
such a numeral.
-/
namespace NamespaceOwnership.Text

def quoteMark (s : List Char) : Char := if '\'' ∈ s ∧ '"' ∉ s then '"' else '\''

/-- A character by its number. -/
def numeral (c : Char) : List Char :=
  if c.toNat < 0x100 then '\\' :: 'x' :: hex 2 c.toNat
  else if c.toNat < 0x10000 then '\\' :: 'u' :: hex 4 c.toNat
  else '\\' :: 'U' :: hex 8 c.toNat

def escape (mark c : Char) : List Char :=
  if c = mark ∨ c = '\\' then ['\\', c]
  else if c = '\n' then ['\\', 'n']
  else if c = '\r' then ['\\', 'r']
  else if c = '\t' then ['\\', 't']
  else if isPrintable c then [c]
  else numeral c

def quoted (s : List Char) : List Char :=
  let mark := quoteMark s
  mark :: s.flatMap (escape mark) ++ [mark]

def asciiOnly (s : List Char) : List Char := s.flatMap fun c => if c.toNat < 128 then [c] else numeral c

end NamespaceOwnership.Text
