import NamespaceOwnership.Text.Quoted

/-!
# Templates of log messages

A template has places for its arguments, which are texts. A place is a per cent sign, flags, a width, a
precision behind a point, a length mark without effect, and a letter that says how the argument is written:
as it is, quoted, quoted in ASCII, or as a single character. Letters for numbers are known and refused. A per
cent sign that is followed by another one stands for itself. `Template.fill` reads the places from the left and
stops at the first fault; there have to be as many arguments as places.
-/
namespace NamespaceOwnership.Template

open Text

inductive FillError where
  | tooFew
  | tooMany
  | incomplete
  | namesAnArgument
  | countFromArgument
  | widthTooBig
  | precisionTooBig
  | notACharacter
  | notANumber (letter : Char)
  | notAnInteger (letter : Char)
  | notReal
  | unknownLetter (letter : Char) (index : Nat)
  deriving DecidableEq, Repr

namespace FillError

/-- Digits in base sixteen without leading zeros. -/
private def hexNumeral (n : Nat) : String := String.ofList (Nat.toDigits 16 n)

def message : FillError → String
  | .tooFew => "not enough arguments for format string"
  | .tooMany => "not all arguments converted during string formatting"
  | .incomplete => "incomplete format"
  | .namesAnArgument => "format requires a mapping"
  | .countFromArgument => "* wants int"
  | .widthTooBig => "width too big"
  | .precisionTooBig => "precision too big"
  | .notACharacter => "%c requires int or char"
  | .notANumber letter => s!"%{letter} format: a real number is required, not str"
  | .notAnInteger letter => s!"%{letter} format: an integer is required, not str"
  | .notReal => "must be real number, not str"
  | .unknownLetter letter index =>
    let shown := if 31 ≤ letter.toNat ∧ letter.toNat < 127 then letter else '?'
    s!"unsupported format character '{shown}' (0x" ++ hexNumeral letter.toNat ++ s!") at index {index}"

/-- The template itself is wrong, rather than its arguments. -/
def isInvalidTemplate : FillError → Bool
  | .incomplete | .widthTooBig | .precisionTooBig | .unknownLetter _ _ => true
  | _ => false

end FillError

/-- How an argument is set into the text. -/
structure Place where
  alignedLeft : Bool
  width : Nat
  precision : Option Nat
  deriving DecidableEq, Repr

namespace Place

/-- Fills up with blanks to the width. -/
def pad (p : Place) (s : List Char) : List Char :=
  let blanks := List.replicate (p.width - s.length) ' '
  if p.alignedLeft then s ++ blanks else blanks ++ s

/-- Cuts off what is beyond the precision. -/
def cut (p : Place) (s : List Char) : List Char :=
  match p.precision with
  | some n => s.take n
  | none => s

theorem width_le_length_pad (p : Place) (s : List Char) : p.width ≤ (p.pad s).length := by
  unfold pad
  split <;> simp only [List.length_append, List.length_replicate] <;> omega

/-- The argument as the letter of the place asks for it. The index is that of the letter. -/
def write (p : Place) (letter : Char) (index : Nat) (arg : List Char) : Except FillError (List Char) :=
  match letter with
  | 's' => .ok (p.pad (p.cut arg))
  | 'r' => .ok (p.pad (p.cut (quoted arg)))
  | 'a' => .ok (p.pad (p.cut (asciiOnly (quoted arg))))
  | 'c' => if arg.length = 1 then .ok (p.pad arg) else .error .notACharacter
  | 'd' | 'i' | 'u' => .error (.notANumber letter)
  | 'o' | 'x' | 'X' => .error (.notAnInteger letter)
  | 'e' | 'E' | 'f' | 'F' | 'g' | 'G' => .error .notReal
  | _ => .error (.unknownLetter letter index)

end Place

def isFlag (c : Char) : Bool := "-+ #0".toList.contains c

def isLengthMark (c : Char) : Bool := "hlL".toList.contains c

def widthLimit : Nat := 9223372036854775807

def precisionLimit : Nat := 2147483647

/-- A count in digits, where there is one. A star would take it from an argument, but all arguments are
texts. -/
def readCount (limit : Nat) (tooBig : FillError) (args : List String) (s : List Char) :
    Except FillError (Option Nat) :=
  if s.head? = some '*' then .error (if args.isEmpty then .tooFew else .countFromArgument)
  else
    let digits := s.takeWhile Char.isDigit
    let n := digits.foldl (fun n c => 10 * n + (c.toNat - 48)) 0
    if limit < n then .error tooBig
    else .ok (if digits.isEmpty then none else some n)

def readPrecision (args : List String) : List Char → Except FillError (Option Nat)
  | '.' :: s => (readCount precisionLimit .precisionTooBig args s).map fun n => some (n.getD 0)
  | _ => .ok none

def skipPrecision : List Char → List Char
  | '.' :: s => s.dropWhile Char.isDigit
  | s => s

def skipLengthMark : List Char → List Char
  | c :: s => if isLengthMark c then s else c :: s
  | [] => []

/-- The text behind flags, width, precision and length mark. -/
def letterOn (s : List Char) : List Char :=
  skipLengthMark (skipPrecision ((s.dropWhile isFlag).dropWhile Char.isDigit))

private theorem length_dropWhile_le (p : Char → Bool) (s : List Char) :
    (s.dropWhile p).length ≤ s.length := (List.dropWhile_suffix p).length_le

theorem length_letterOn_le (s : List Char) : (letterOn s).length ≤ s.length := by
  have mark (t : List Char) : (skipLengthMark t).length ≤ t.length := by
    unfold skipLengthMark
    split
    · split
      · exact Nat.le_succ _
      · exact Nat.le_refl _
    · exact Nat.le_refl _
  have precision (t : List Char) : (skipPrecision t).length ≤ t.length := by
    unfold skipPrecision
    split
    · exact Nat.le_succ_of_le (length_dropWhile_le _ _)
    · exact Nat.le_refl _
  exact Nat.le_trans (mark _) (Nat.le_trans (precision _)
    (Nat.le_trans (length_dropWhile_le _ _) (length_dropWhile_le _ _)))

private theorem length_rest_le {s rest : List Char} {letter : Char} (h : letterOn s = letter :: rest) :
    rest.length ≤ s.length := by
  have := length_letterOn_le s
  simp only [h, List.length_cons] at this
  omega

/-- The place that stands before the letter. -/
def readPlace (args : List String) (s : List Char) : Except FillError Place := do
  let behindFlags := s.dropWhile isFlag
  let width ← readCount widthLimit .widthTooBig args behindFlags
  let precision ← readPrecision args (behindFlags.dropWhile Char.isDigit)
  return ⟨(s.takeWhile isFlag).contains '-', width.getD 0, precision⟩

/-- Fills the rest of a template that is so long as a whole. -/
def fillFrom (length : Nat) : List Char → List String → Except FillError (List Char)
  | [], [] => .ok []
  | [], _ :: _ => .error .tooMany
  | '%' :: '%' :: rest, args => (fillFrom length rest args).map ('%' :: ·)
  | '%' :: '(' :: _, _ => .error .namesAnArgument
  | '%' :: s, args =>
    match readPlace args s with
    | .error e => .error e
    | .ok place =>
      match found : letterOn s, args with
      | [], _ => .error .incomplete
      | _ :: _, [] => .error .tooFew
      | letter :: rest, arg :: others =>
        have := length_rest_le found
        match place.write letter (length - rest.length - 1) arg.toList with
        | .error e => .error e
        | .ok text => (fillFrom length rest others).map (text ++ ·)
  | c :: rest, args => (fillFrom length rest args).map (c :: ·)
termination_by s => s.length
decreasing_by all_goals
  simp only [List.length_cons]
  omega

def fill (template : String) (args : List String) : Except FillError String :=
  (fillFrom template.length template.toList args).map String.ofList

end NamespaceOwnership.Template
