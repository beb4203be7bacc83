import NamespaceOwnership.Text.Hex
import NamespaceOwnership.Value.Basic

/-!
# Values read from JSON text

The entries of an object keep their order. A numeral with a point or an exponent is a floating-point
number, any other one an integer of any size. Beyond the standard, the infinities and what is no number are
read by their names. The reader is total: each step takes a character or goes one level down, so that twice
the length of the text bounds their number.
-/
namespace NamespaceOwnership.Json

open Number (Binary64)

private def skip (s : List Char) : List Char :=
  s.dropWhile fun c => c == ' ' || c == '\n' || c == '\r' || c == '\t'

private def hexUnit? : List Char → Option (Nat × List Char)
  | a :: b :: c :: d :: rest => do
    let n := ((← Text.hexValue? a) * 16 + (← Text.hexValue? b)) * 16
    return ((n + (← Text.hexValue? c)) * 16 + (← Text.hexValue? d), rest)
  | _ => none

private def plainEscape? : Char → Option Char
  | '"' => some '"'
  | '\\' => some '\\'
  | '/' => some '/'
  | 'b' => some (Char.ofNat 8)
  | 'f' => some (Char.ofNat 12)
  | 'n' => some '\n'
  | 'r' => some '\r'
  | 't' => some '\t'
  | _ => none

/-- Reads up to the closing quote, with the characters so far in reverse. -/
private def readQuoted : (fuel : Nat) → (back : List Char) → List Char → Option (String × List Char)
  | 0, _, _ => none
  | _ + 1, back, '"' :: rest => some (String.ofList back.reverse, rest)
  | fuel + 1, back, '\\' :: 'u' :: s => do
    let (n, rest) ← hexUnit? s
    if 0xD800 ≤ n && n < 0xDC00 then
      match rest with
      | '\\' :: 'u' :: t =>
        let (low, rest) ← hexUnit? t
        readQuoted fuel (Char.ofNat (0x10000 + (n - 0xD800) * 0x400 + (low - 0xDC00)) :: back) rest
      | _ => none
    else readQuoted fuel (Char.ofNat n :: back) rest
  | fuel + 1, back, '\\' :: c :: rest => do readQuoted fuel ((← plainEscape? c) :: back) rest
  | fuel + 1, back, c :: rest => readQuoted fuel (c :: back) rest
  | _ + 1, _, [] => none

private def digitsValue (ds : List Char) : Nat := ds.foldl (fun n c => 10 * n + (c.toNat - 48)) 0

/-- Names of numbers without numerals. -/
private def namedNumber? : List Char → Option (Binary64 × List Char)
  | 'N' :: 'a' :: 'N' :: rest => some (.undefined, rest)
  | '-' :: 'I' :: 'n' :: 'f' :: 'i' :: 'n' :: 'i' :: 't' :: 'y' :: rest => some (.infinite true, rest)
  | 'I' :: 'n' :: 'f' :: 'i' :: 'n' :: 'i' :: 't' :: 'y' :: rest => some (.infinite false, rest)
  | _ => none

private def readNumber (s : List Char) : Option (Value × List Char) := do
  let (negative, s) := match s with
    | '-' :: rest => (true, rest)
    | _ => (false, s)
  let (whole, s) := s.span Char.isDigit
  guard (!whole.isEmpty)
  let (fraction, isFloat, s) := match s with
    | '.' :: rest => ((rest.span Char.isDigit).1, true, (rest.span Char.isDigit).2)
    | _ => ([], false, s)
  let (exponent, isFloat, s) : Int × Bool × List Char := match s with
    | e :: rest =>
      if e == 'e' || e == 'E' then
        let (down, rest) := match rest with
          | '-' :: r => (true, r)
          | '+' :: r => (false, r)
          | r => (false, r)
        let (ds, rest) := rest.span Char.isDigit
        (if down then -(digitsValue ds : Int) else digitsValue ds, true, rest)
      else (0, isFloat, s)
    | [] => (0, isFloat, s)
  let n := digitsValue (whole ++ fraction)
  if isFloat then return (.float (Binary64.ofDecimal negative n (exponent - fraction.length)), s)
  else return (.int (if negative then -(n : Int) else n), s)

mutual
private def readValue : (fuel : Nat) → List Char → Option (Value × List Char)
  | 0, _ => none
  | fuel + 1, s =>
    match skip s with
    | 'n' :: 'u' :: 'l' :: 'l' :: rest => some (.null, rest)
    | 't' :: 'r' :: 'u' :: 'e' :: rest => some (.bool true, rest)
    | 'f' :: 'a' :: 'l' :: 's' :: 'e' :: rest => some (.bool false, rest)
    | '"' :: rest => (readQuoted (fuel + 1) [] rest).map fun r => (.text r.1, r.2)
    | '[' :: rest =>
      match skip rest with
      | ']' :: rest => some (.list [], rest)
      | rest => readItems fuel [] rest
    | '\x7b' :: rest =>
      match skip rest with
      | '\x7d' :: rest => some (.fields [], rest)
      | rest => readEntries fuel [] rest
    | rest =>
      match namedNumber? rest with
      | some (x, rest) => some (.float x, rest)
      | none => readNumber rest
/-- The items after an opening bracket, those read so far in reverse. -/
private def readItems : (fuel : Nat) → (back : List Value) → List Char → Option (Value × List Char)
  | 0, _, _ => none
  | fuel + 1, back, s => do
    let (v, rest) ← readValue fuel s
    match skip rest with
    | ',' :: rest => readItems fuel (v :: back) rest
    | ']' :: rest => some (.list (v :: back).reverse, rest)
    | _ => none
private def readEntries :
    (fuel : Nat) → (back : List (String × Value)) → List Char → Option (Value × List Char)
  | 0, _, _ => none
  | fuel + 1, back, s =>
    match skip s with
    | '"' :: rest => do
      let (k, rest) ← readQuoted (fuel + 1) [] rest
      match skip rest with
      | ':' :: rest =>
        let (v, rest) ← readValue fuel rest
        match skip rest with
        | ',' :: rest => readEntries fuel ((k, v) :: back) rest
        | '\x7d' :: rest => some (.fields ((k, v) :: back).reverse, rest)
        | _ => none
      | _ => none
    | _ => none
end

def read? (text : String) : Option Value :=
  let s := text.toList
  match readValue (2 * s.length + 2) s with
  | some (v, rest) => if (skip rest).isEmpty then some v else none
  | none => none

end NamespaceOwnership.Json
