import NamespaceOwnership.Number.Rounding

/-!
# Binary floating-point numbers of 64 bits

A finite number is a signed mantissa below `2 ^ 53` times a power of two; the exponent is the least
possible one, and at least -1074. `Binary64.ofRatio` rounds a quotient to the nearest number, and to the
one with an even mantissa where two are equally near; `Binary64.add`, `Binary64.sub` and `Binary64.scale` round
the exact result in the same way. Finite numbers are compared as quotients, so comparing does not round.
-/
namespace NamespaceOwnership.Number

inductive Binary64 where
  | finite (negative : Bool) (mantissa : Nat) (exponent : Int)
  | infinite (negative : Bool)
  /-- No number at all. -/
  | undefined
  deriving DecidableEq, Repr

namespace Binary64

def zero (negative : Bool) : Binary64 := .finite negative 0 (-1074)

/-- The mantissa of `num / den` at the exponent `e`, rounded. -/
def mantissaAt (num den : Nat) (e : Int) : Nat :=
  roundDiv (num * Nat.pow 2 (-e).toNat) (den * Nat.pow 2 e.toNat)

/-- The exponent at which a quotient has a mantissa of 53 places before it is rounded; the least exponent where
that one is too small. -/
def exponentOf (num den : Nat) : Int :=
  let rough : Int := (num.log2 : Int) - den.log2 - 53
  let tooFine :=
    num * Nat.pow 2 (-rough).toNat < Nat.pow 2 53 * (den * Nat.pow 2 rough.toNat)
  max (if tooFine then rough else rough + 1) (-1074)

def ofRatio (negative : Bool) (num den : Nat) : Binary64 :=
  if num = 0 then zero negative
  else
    let e := exponentOf num den
    let m := mantissaAt num den e
    let (m, e) := if m = Nat.pow 2 53 then (Nat.pow 2 52, e + 1) else (m, e)
    if 971 < e then .infinite negative else .finite negative m e

/-- The number nearest to `digits * 10 ^ exponent`. Beyond four hundred places nothing but zero and
infinity is near. -/
def ofDecimal (negative : Bool) (digits : Nat) (exponent : Int) : Binary64 :=
  if digits = 0 then zero negative
  else
    let magnitude : Int := exponent + (Nat.toDigits 10 digits).length
    if magnitude < -400 then zero negative
    else if 400 < magnitude then .infinite negative
    else ofRatio negative (digits * Nat.pow 10 exponent.toNat) (Nat.pow 10 (-exponent).toNat)

def ofInt (n : Int) : Binary64 := ofRatio (n < 0) n.natAbs 1

def isZero : Binary64 → Bool
  | .finite _ m _ => m == 0
  | .infinite _ | .undefined => false

def isFinite : Binary64 → Bool
  | .finite _ _ _ => true
  | .infinite _ | .undefined => false

/-- The integer between zero and the number that is nearest to it; none where the number is not finite. -/
def truncate? : Binary64 → Option Int
  | .finite negative m e =>
    let n : Nat := m * Nat.pow 2 e.toNat / Nat.pow 2 (-e).toNat
    some (if negative then -n else n)
  | .infinite _ | .undefined => none

/-- The number is this integer. -/
def isInt (x : Binary64) (n : Int) : Bool :=
  match x with
  | .finite negative m e =>
    decide (n.natAbs * Nat.pow 2 (-e).toNat = m * Nat.pow 2 e.toNat) &&
      (m == 0 || negative == decide (n < 0))
  | .infinite _ | .undefined => false

/-- The number nearest to a quotient with a sign. -/
def ofQuotient (num : Int) (den : Nat) : Binary64 := ofRatio (num < 0) num.natAbs den

/-- A finite number as a quotient. -/
def quotient? : Binary64 → Option (Int × Nat)
  | .finite negative m e =>
    let n : Nat := m * Nat.pow 2 e.toNat
    some (if negative then -n else n, Nat.pow 2 (-e).toNat)
  | .infinite _ | .undefined => none

/-- The sum. Infinities of both signs have none. -/
def add (x y : Binary64) : Binary64 :=
  match x.quotient?, y.quotient? with
  | some (a, b), some (c, d) => ofQuotient (a * d + c * b) (b * d)
  | some _, none => y
  | none, some _ => x
  | none, none => if x = y then x else .undefined

def neg : Binary64 → Binary64
  | .finite negative m e => .finite (!negative) m e
  | .infinite negative => .infinite !negative
  | .undefined => .undefined

def sub (x y : Binary64) : Binary64 := x.add y.neg

/-- Nothing compares with what is no number. -/
def le (x y : Binary64) : Bool :=
  match x.quotient?, y.quotient? with
  | some (a, b), some (c, d) => decide (a * d ≤ c * b)
  | _, _ => x == .infinite true && y != .undefined || y == .infinite false && x != .undefined

def lt (x y : Binary64) : Bool := x.le y && !y.le x

/-- The greater one of two numbers, the first where neither is. -/
protected def max (x y : Binary64) : Binary64 := if x.lt y then y else x

/-- The least one among a number and others, the first of them where several are equal. -/
def least : Binary64 → List Binary64 → Binary64
  | x, [] => x
  | x, y :: rest => least (if y.lt x then y else x) rest

/-- The least integer that is not below the number; none where the number is not finite. -/
def ceil? (x : Binary64) : Option Int := x.quotient?.map fun q => -(-q.1 / q.2)

/-- The product of a finite number and an integer. -/
def scale (x : Binary64) (n : Int) : Binary64 :=
  match x.quotient? with
  | some (a, b) => ofQuotient (n * a) b
  | none => .undefined

/-- The integer nearest to a finite number. -/
def round? (x : Binary64) : Option Int := x.quotient?.map fun q => roundQuotient q.1 q.2

/-- At the exponent of a power of two its mantissa is the least one that fills the places. -/
private theorem mantissaAt_two_pow (k : Nat) : mantissaAt (Nat.pow 2 k) 1 ((k : Int) - 52) = Nat.pow 2 52 := by
  have hexact (n den : Nat) (h : 0 < den) : roundDiv (n * den) den = n := by
    have hdiv : n * den / den = n := Nat.mul_div_cancel n h
    have hlt : compare 0 den = .lt := Nat.compare_eq_lt.mpr h
    simp [roundDiv, hdiv, hlt]
  have hnum : Nat.pow 2 k * Nat.pow 2 (-((k : Int) - 52)).toNat = Nat.pow 2 52 * Nat.pow 2 ((k : Int) - 52).toNat := by
    rw [Nat.pow_eq, Nat.pow_eq, Nat.pow_eq, Nat.pow_eq, ← Nat.pow_add, ← Nat.pow_add]
    congr 1
    omega
  rw [mantissaAt, hnum, Nat.one_mul]
  exact hexact _ _ (Nat.pow_pos Nat.two_pos)

/-- The powers of two up to the last one that has a finite number. -/
theorem ofInt_two_pow (k : Nat) : ofInt (Nat.pow 2 k : Nat) =
    if k ≤ 1023 then .finite false (Nat.pow 2 52) (k - 52) else .infinite false := by
  have hpos : 0 < Nat.pow 2 k := Nat.pow_pos Nat.two_pos
  have hlog : (Nat.pow 2 k).log2 = k := Nat.log2_two_pow
  have hone : Nat.log2 1 = 0 := by decide
  have hrough : ¬Nat.pow 2 k * Nat.pow 2 (-((k : Int) - 53)).toNat <
      Nat.pow 2 53 * (1 * Nat.pow 2 ((k : Int) - 53).toNat) := by
    rw [Nat.one_mul, Nat.pow_eq, Nat.pow_eq, Nat.pow_eq, Nat.pow_eq, ← Nat.pow_add, ← Nat.pow_add, Nat.not_lt]
    exact Nat.pow_le_pow_right Nat.two_pos (by omega)
  have hsign : decide (((Nat.pow 2 k : Nat) : Int) < 0) = false :=
    decide_eq_false (Int.not_lt.mpr (Int.natCast_nonneg _))
  have hexp : exponentOf (Nat.pow 2 k) 1 = k - 52 := by
    rw [exponentOf, hlog, hone]
    simp only [Int.natCast_zero, Int.sub_zero, if_neg hrough]
    omega
  have hfull : ¬Nat.pow 2 52 = Nat.pow 2 53 := by decide
  rw [ofInt, hsign, Int.natAbs_natCast, ofRatio, if_neg (by omega)]
  simp only [hexp, mantissaAt_two_pow, if_neg hfull]
  by_cases hk : k ≤ 1023
  · rw [if_neg (by omega), if_pos hk]
  · rw [if_pos (by omega), if_neg hk]

end Binary64
end NamespaceOwnership.Number
