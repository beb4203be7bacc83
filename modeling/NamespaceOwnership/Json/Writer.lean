import NamespaceOwnership.Number.Shortest
import NamespaceOwnership.Text.Hex
import NamespaceOwnership.Value.Basic

/-!
# JSON text of a value

Items are separated by a comma and a blank, names and values by a colon and a blank. The text has
printable ASCII characters only: the others are escaped as one or two units of sixteen bits. Beyond the
standard, the infinities and what is no number have names.
-/
namespace NamespaceOwnership.Json

private def unit (n : Nat) : List Char := '\\' :: 'u' :: Text.hex 4 n

def escape (c : Char) : List Char :=
  if c = '"' ∨ c = '\\' then ['\\', c]
  else if c = '\n' then ['\\', 'n']
  else if c = '\r' then ['\\', 'r']
  else if c = '\t' then ['\\', 't']
  else if c.toNat = 8 then ['\\', 'b']
  else if c.toNat = 12 then ['\\', 'f']
  else if 32 ≤ c.toNat ∧ c.toNat < 127 then [c]
  else if c.toNat < 0x10000 then unit c.toNat
  else
    let n := c.toNat - 0x10000
    unit (0xD800 + n / 0x400) ++ unit (0xDC00 + n % 0x400)

def quote (s : String) : String := String.ofList ('"' :: s.toList.flatMap escape ++ ['"'])

def numeral (x : Number.Binary64) : String :=
  match x with
  | .undefined => "NaN"
  | .infinite negative => if negative then "-Infinity" else "Infinity"
  | .finite _ _ _ => x.text

mutual
/-- Appends the text of a value. -/
def write (out : String) : Value → String
  | .null => out ++ "null"
  | .bool b => out ++ (if b then "true" else "false")
  | .int n => out ++ toString n
  | .float x => out ++ numeral x
  | .text s => out ++ quote s
  | .list items => writeItems (out ++ "[") items ++ "]"
  | .fields entries => writeEntries (out ++ "\x7b") entries ++ "\x7d"
def writeItems (out : String) : List Value → String
  | [] => out
  | [v] => write out v
  | v :: w :: rest => writeItems (write out v ++ ", ") (w :: rest)
def writeEntries (out : String) : List (String × Value) → String
  | [] => out
  | [(k, v)] => write (out ++ quote k ++ ": ") v
  | (k, v) :: e :: rest => writeEntries (write (out ++ quote k ++ ": ") v ++ ", ") (e :: rest)
end

def text (v : Value) : String := write "" v

end NamespaceOwnership.Json
