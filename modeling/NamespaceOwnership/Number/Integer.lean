import NamespaceOwnership.Text.Blank
import NamespaceOwnership.Text.Digit
import NamespaceOwnership.Text.Quoted

/-!
# Integers read from text

An integer is written in decimal digits of any script, with an optional sign and with single
underscores between digits; blanks around it do not count. At most 4300 digits are read. The length is looked
at first: too many digits are reported even where something else follows them that does not belong there.
-/
namespace NamespaceOwnership.Number
open Text

inductive IntegerError where
  | malformed (text : String)
  | tooLong (digits : Nat)
  deriving DecidableEq, Repr

def digitLimit : Nat := 4300

/-- The text that cannot be read is quoted up to two hundred characters. -/
def IntegerError.message : IntegerError → String
  | .malformed text =>
    "invalid literal for int() with base 10: " ++ String.ofList ((quoted text.toList).take 200)
  | .tooLong digits =>
    s!"Exceeds the limit ({digitLimit} digits) for integer string conversion: value has {digits} " ++
      "digits; use sys.set_int_max_str_digits() to increase the limit"

/-- Blanks that may stand around an integer: all but the four separators U+001C to U+001F. -/
def isPadding (c : Char) : Bool := isBlank c && !(0x1C ≤ c.toNat && c.toNat ≤ 0x1F)

/-- The values of a non-empty run of digits; an underscore stands between two of them. -/
def digitRun : List Char → Option (List Nat)
  | [] => none
  | c :: s => do
    let d ← digitValue? c
    match s with
    | [] => some [d]
    | '_' :: rest => (digitRun rest).map (d :: ·)
    | rest => (digitRun rest).map (d :: ·)

def ofDigits (ds : List Nat) : Nat := ds.foldl (fun n d => 10 * n + d) 0

def signed : List Char → Bool × List Char
  | '-' :: s => (true, s)
  | '+' :: s => (false, s)
  | s => (false, s)

/-- A character of the run that a numeral begins with. -/
def inRun (c : Char) : Bool := c == '_' || (digitValue? c).isSome

/-- The sign of a numeral and the text from its first digit on. -/
def unpadded (text : String) : Bool × List Char := signed (text.toList.dropWhile isPadding)

def readInteger (text : String) : Except IntegerError Int :=
  let (negative, body) := unpadded text
  match digitRun (body.takeWhile inRun) with
  | none => .error (.malformed text)
  | some ds =>
    if digitLimit < ds.length then .error (.tooLong ds.length)
    else if !(body.dropWhile inRun).all isPadding then .error (.malformed text)
    else .ok (if negative then -(ofDigits ds) else ofDigits ds)

theorem readInteger_ok {text : String} {n : Int} (h : readInteger text = .ok n) :
    ∃ ds, digitRun ((unpadded text).2.takeWhile inRun) = some ds ∧ ds.length ≤ digitLimit ∧
      ((unpadded text).2.dropWhile inRun).all isPadding = true ∧ n.natAbs = ofDigits ds := by
  unfold readInteger at h
  simp only at h
  split at h
  · cases h
  · rename_i ds hds
    split at h
    · cases h
    · split at h
      · cases h
      · rename_i hrest
        refine ⟨ds, hds, by omega, by simpa using hrest, ?_⟩
        cases h
        split <;> simp

end NamespaceOwnership.Number
