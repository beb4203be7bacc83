import NamespaceOwnership.Number.Binary64

/-!
# The shortest decimal of a floating-point number

Of the decimals that round to a given number the shortest one identifies it; among several of that
length the nearest is taken. Small and middling numbers are written positionally with at least one
place after the point, the others with a signed exponent.
-/
namespace NamespaceOwnership.Number

/-- `digits * 10 ^ exponent`. -/
structure Decimal where
  digits : Nat
  exponent : Int
  deriving DecidableEq, Repr

namespace Binary64

/-- A positive number and the ends of the interval of reals that round to it, over one denominator. -/
private structure Interval where
  low : Nat
  value : Nat
  high : Nat
  unit : Nat
  closed : Bool

private def interval (m : Nat) (e : Int) : Interval where
  low := (if m = Nat.pow 2 52 ∧ -1074 < e then 4 * m - 1 else 4 * m - 2) * Nat.pow 2 (e - 2).toNat
  value := 4 * m * Nat.pow 2 (e - 2).toNat
  high := (4 * m + 2) * Nat.pow 2 (e - 2).toNat
  unit := Nat.pow 2 (2 - e).toNat
  closed := m % 2 == 0

private def Interval.scale (i : Interval) (exponent : Int) : Interval :=
  let up := Nat.pow 10 (-exponent).toNat
  { i with low := i.low * up, value := i.value * up, high := i.high * up,
           unit := i.unit * Nat.pow 10 exponent.toNat }

private def Interval.contains (i : Interval) (d : Nat) : Bool :=
  if i.closed then i.low ≤ d * i.unit && d * i.unit ≤ i.high
  else i.low < d * i.unit && d * i.unit < i.high

/-- The multiple of `10 ^ exponent` that lies in the interval and is nearest to its number. -/
private def Interval.onGrid? (i : Interval) (exponent : Int) : Option Decimal :=
  let s := i.scale exponent
  let d := s.value / s.unit
  match s.contains d, s.contains (d + 1) with
  | false, false => none
  | true, false => some ⟨d, exponent⟩
  | false, true => some ⟨d + 1, exponent⟩
  | true, true => some ⟨roundDiv s.value s.unit, exponent⟩

/-- The least power of ten above `m * 2 ^ e`. -/
private def scaleOf (m : Nat) (e : Int) : Int :=
  let low : Int := ((m.log2 : Int) + e) * 30103 / 100000 - 1
  let above (k : Int) : Bool :=
    m * Nat.pow 2 e.toNat * Nat.pow 10 (-k).toNat < Nat.pow 10 k.toNat * Nat.pow 2 (-e).toNat
  (((List.range 5).map fun n : Nat => low + (n : Int)).find? above).getD (low + 5)

/-- Seventeen digits tell all numbers apart. -/
def shortest (m : Nat) (e : Int) : Decimal :=
  let i := interval m e
  let k := scaleOf m e
  ((List.range 17).findSome? fun n : Nat => i.onGrid? (k - 1 - (n : Int))).getD
    ⟨m * Nat.pow 2 e.toNat * Nat.pow 5 (-e).toNat, min e 0⟩

private def zeros (n : Nat) : String := String.ofList (List.replicate n '0')

/-- From the digits of a decimal without trailing zeros and the exponent of its first digit. -/
private def layout (ds : List Char) (lead : Int) : String :=
  if -4 ≤ lead ∧ lead < 16 then
    if lead < 0 then "0." ++ zeros (-lead - 1).toNat ++ String.ofList ds
    else
      let whole := lead.toNat + 1
      if ds.length ≤ whole then String.ofList ds ++ zeros (whole - ds.length) ++ ".0"
      else String.ofList (ds.take whole) ++ "." ++ String.ofList (ds.drop whole)
  else
    let fraction := ds.drop 1
    let power := toString lead.natAbs
    String.ofList (ds.take 1) ++ (if fraction.isEmpty then "" else "." ++ String.ofList fraction) ++
      (if lead < 0 then "e-" else "e+") ++ (if power.length < 2 then "0" else "") ++ power

def text : Binary64 → String
  | .undefined => "nan"
  | .infinite negative => if negative then "-inf" else "inf"
  | .finite negative m e =>
    let mark := if negative then "-" else ""
    if m = 0 then mark ++ "0.0"
    else
      let d := shortest m e
      let ds := Nat.toDigits 10 d.digits
      mark ++ layout (ds.reverse.dropWhile (· == '0')).reverse (d.exponent + ds.length - 1)

private theorem layout_ne_empty (ds : List Char) (lead : Int) : layout ds lead ≠ "" := by
  unfold layout
  by_cases hplain : -4 ≤ lead ∧ lead < 16
  · rw [if_pos hplain]
    by_cases hsmall : lead < 0
    · simp [hsmall]
    · by_cases hwhole : ds.length ≤ lead.toNat + 1 <;> simp [hsmall, hwhole]
  · rw [if_neg hplain]
    by_cases hsmall : lead < 0 <;> simp [hsmall]

theorem text_ne_empty (x : Binary64) : x.text ≠ "" := by
  cases x with
  | undefined => simp [text]
  | infinite negative => cases negative <;> simp [text]
  | finite negative m e =>
    by_cases hm : m = 0
    · simp [text, hm]
    · simp [text, hm, layout_ne_empty]

end Binary64
end NamespaceOwnership.Number
