/-!
# Rounding a quotient

`roundDiv num den` is the integer nearest to `num / den`; of two equally near ones it is the even one.
-/
namespace NamespaceOwnership.Number

def roundDiv (num den : Nat) : Nat :=
  match compare (2 * (num % den)) den with
  | .lt => num / den
  | .gt => num / den + 1
  | .eq => if num / den % 2 = 0 then num / den else num / den + 1

theorem roundDiv_near (num : Nat) {den : Nat} (h : 0 < den) :
    2 * (roundDiv num den * den) ≤ 2 * num + den ∧ 2 * num ≤ 2 * (roundDiv num den * den) + den := by
  have e := Nat.div_add_mod num den
  have l := Nat.mod_lt num h
  have s : (num / den + 1) * den = den * (num / den) + den := by rw [Nat.add_mul, Nat.mul_comm]; simp
  have s0 : num / den * den = den * (num / den) := Nat.mul_comm ..
  unfold roundDiv
  split
  · rename_i hc
    rw [Nat.compare_eq_lt] at hc
    omega
  · rename_i hc
    rw [Nat.compare_eq_gt] at hc
    omega
  · rename_i hc
    rw [Nat.compare_eq_eq] at hc
    split <;> omega

/-- The integer nearest to a quotient with a sign. -/
def roundQuotient (num : Int) (den : Nat) : Int :=
  if num < 0 then -(roundDiv num.natAbs den) else roundDiv num.natAbs den

/-- The text of a number of thousandths with two places. -/
def hundredths (thousandths : Int) : String :=
  let n := roundDiv thousandths.natAbs 10
  let mark := if thousandths < 0 then "-" else ""
  let fraction := n % 100
  mark ++ toString (n / 100) ++ "." ++ (if fraction < 10 then "0" else "") ++ toString fraction

end NamespaceOwnership.Number
