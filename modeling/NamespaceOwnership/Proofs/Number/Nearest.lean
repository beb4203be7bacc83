import Mathlib.Algebra.Order.Field.Power
import Mathlib.Data.Rat.Floor
import Mathlib.Tactic.FieldSimp
import Mathlib.Tactic.Linarith
import Mathlib.Tactic.Positivity
import Mathlib.Tactic.Ring
import NamespaceOwnership.Number.Binary64

/-!
# The nearest floating-point number

A finite number has a rational value. What rounding a quotient gives, unless it is infinite, is a number whose value is
nearest to the quotient (`Binary64.ofQuotient_nearest`): at the exponent of the result the mantissa is the nearest
integer, and the numbers of smaller exponents lie below all that are rounded at this one. So sums and differences are
nearest to the exact ones, while a comparison and the integer above a number are exact.
-/
namespace NamespaceOwnership.Number

theorem two_zpow_eq (e : ℤ) : (2 : ℚ) ^ e = 2 ^ e.toNat / 2 ^ (-e).toNat := by
  rw [← zpow_natCast, ← zpow_natCast, ← zpow_sub₀ two_ne_zero]
  congr 1
  omega

theorem roundDiv_dist (num : Nat) {den : Nat} (h : 0 < den) : |(roundDiv num den : ℚ) * den - num| ≤ den / 2 := by
  obtain ⟨hle, hge⟩ := roundDiv_near num h
  have hle' : (2 : ℚ) * (roundDiv num den * den) ≤ 2 * num + den := by exact_mod_cast hle
  have hge' : (2 : ℚ) * num ≤ 2 * (roundDiv num den * den) + den := by exact_mod_cast hge
  rw [abs_le]
  constructor <;> linarith

namespace Binary64

variable {x y : Binary64} {q : ℚ} {e : ℤ} {m : ℕ}

def sign (negative : Bool) : ℚ := if negative then -1 else 1

/-- The value of a finite number. -/
def value : Binary64 → ℚ
  | .finite negative m e => sign negative * (m * 2 ^ e)
  | .infinite _ | .undefined => 0

/-- The finite numbers that there are. -/
def IsNumber : Binary64 → Prop
  | .finite _ m e => m < 2 ^ 53 ∧ -1074 ≤ e ∧ e ≤ 971
  | .infinite _ | .undefined => False

/-- No number is nearer. -/
structure Nearest (x : Binary64) (q : ℚ) : Prop where
  isNumber : x.IsNumber
  dist_le (y : Binary64) : y.IsNumber → |x.value - q| ≤ |y.value - q|

namespace Nearest

theorem le_value (hx : x.Nearest q) (hy : y.IsNumber) (hle : y.value ≤ q) : y.value ≤ x.value := by
  by_contra hlt
  have hdist := hx.dist_le y hy
  rw [abs_of_nonpos (by linarith), abs_of_nonpos (by linarith)] at hdist
  linarith

theorem value_le (hx : x.Nearest q) (hy : y.IsNumber) (hle : q ≤ y.value) : x.value ≤ y.value := by
  by_contra hlt
  have hdist := hx.dist_le y hy
  rw [abs_of_nonneg (by linarith), abs_of_nonneg (by linarith)] at hdist
  linarith

/-- A number is the only one nearest to its value. -/
theorem exact (hx : x.Nearest q) (hy : y.IsNumber) (heq : y.value = q) : x.value = q :=
  le_antisymm ((hx.value_le hy heq.ge).trans heq.le) (heq.ge.trans (hx.le_value hy heq.le))

end Nearest

theorem IsNumber.isFinite (hx : x.IsNumber) : x.isFinite = true := by
  cases x with
  | finite => rfl
  | infinite => cases hx
  | undefined => cases hx

theorem IsNumber.exists_mantissa (hx : x.IsNumber) :
    ∃ k f : ℤ, |(k : ℚ)| < 2 ^ 53 ∧ -1074 ≤ f ∧ f ≤ 971 ∧ x.value = k * 2 ^ f := by
  cases x with
  | finite negative m e =>
    obtain ⟨hm, hleast, hmost⟩ := hx
    have hm' : (m : ℚ) < 2 ^ 53 := by exact_mod_cast hm
    refine ⟨if negative then -m else m, e, ?_, hleast, hmost, by cases negative <;> simp [value, sign]⟩
    cases negative <;> simpa using hm'
  | infinite => cases hx
  | undefined => cases hx

theorem IsNumber.abs_value_le (hx : x.IsNumber) : |x.value| ≤ (2 ^ 53 - 1) * 2 ^ (971 : ℤ) := by
  obtain ⟨k, f, hk, -, hmost, heq⟩ := hx.exists_mantissa
  have hk' : |k| < 2 ^ 53 := by exact_mod_cast hk
  have hk'' : (|k| : ℚ) ≤ 2 ^ 53 - 1 := by exact_mod_cast Int.le_sub_one_of_lt hk'
  rw [heq, abs_mul, abs_of_pos (by positivity : (0 : ℚ) < 2 ^ f)]
  exact mul_le_mul hk'' (zpow_le_zpow_right₀ one_le_two hmost) (by positivity) (by norm_num)

section Rounding

/-- The nearest multiple of a power of two is nearer than the others. -/
theorem dist_le_of_multiple (hm : |(m : ℚ) * 2 ^ e - q| ≤ 2 ^ e / 2) (j : ℤ) :
    |(m : ℚ) * 2 ^ e - q| ≤ |(j : ℚ) * 2 ^ e - q| := by
  rcases eq_or_ne j m with rfl | hne
  · exact le_of_eq (by simp)
  have hone : (1 : ℚ) ≤ |(j : ℚ) - m| := by exact_mod_cast Int.one_le_abs (sub_ne_zero.mpr hne)
  have hpos : (0 : ℚ) < 2 ^ e := by positivity
  have hapart : (2 : ℚ) ^ e ≤ |(j : ℚ) * 2 ^ e - m * 2 ^ e| := by
    rw [← sub_mul, abs_mul, abs_of_pos hpos]
    exact le_mul_of_one_le_left hpos.le hone
  have htriangle := abs_sub_le ((j : ℚ) * 2 ^ e) q (m * 2 ^ e)
  rw [abs_sub_comm q] at htriangle
  linarith

/-- The exponent at which a positive quotient is rounded. -/
structure Scale (q : ℚ) (e : ℤ) : Prop where
  least : -1074 ≤ e
  full : e = -1074 ∨ 2 ^ 52 * 2 ^ e ≤ q
  fits : q < 2 ^ 53 * 2 ^ e

/-- There the nearest multiple of the power of two is nearer than any number. -/
theorem Scale.dist_le (hs : Scale q e) (hm : |(m : ℚ) * 2 ^ e - q| ≤ 2 ^ e / 2) {k f : ℤ} (hk : |(k : ℚ)| < 2 ^ 53)
    (hf : -1074 ≤ f) : |(m : ℚ) * 2 ^ e - q| ≤ |(k : ℚ) * 2 ^ f - q| := by
  rcases le_or_gt e f with hle | hlt
  · have hmultiple : (k : ℚ) * 2 ^ f = ((k * 2 ^ (f - e).toNat : ℤ) : ℚ) * 2 ^ e := by
      push_cast
      rw [mul_assoc, ← zpow_natCast, ← zpow_add₀ two_ne_zero]
      congr 2
      omega
    rw [hmultiple]
    exact dist_le_of_multiple hm _
  · -- a number of a smaller exponent lies below the least mantissa that fills the places
    have hfull : (2 : ℚ) ^ 52 * 2 ^ e ≤ q := hs.full.resolve_left (by omega)
    have hstep : (2 : ℚ) ^ f ≤ 2 ^ e / 2 := by
      rw [div_eq_mul_inv, ← zpow_sub_one₀ two_ne_zero]
      exact zpow_le_zpow_right₀ one_le_two (by omega)
    have hpos : (0 : ℚ) < 2 ^ f := by positivity
    have hbelow : (k : ℚ) * 2 ^ f ≤ 2 ^ 52 * 2 ^ e := by
      have hk' : (k : ℚ) * 2 ^ f ≤ 2 ^ 53 * 2 ^ f := mul_le_mul_of_nonneg_right (abs_lt.mp hk).2.le hpos.le
      linarith
    calc |(m : ℚ) * 2 ^ e - q| ≤ |((2 ^ 52 : ℤ) : ℚ) * 2 ^ e - q| := dist_le_of_multiple hm _
      _ = q - 2 ^ 52 * 2 ^ e := by
        rw [abs_of_nonpos] <;> push_cast <;> linarith
      _ ≤ q - k * 2 ^ f := by linarith
      _ ≤ |(k : ℚ) * 2 ^ f - q| := by
        rw [abs_sub_comm]
        exact le_abs_self _

variable {num den : ℕ}

theorem mantissaAt_dist (num : ℕ) (hden : 0 < den) (e : ℤ) :
    |(mantissaAt num den e : ℚ) * 2 ^ e - num / den| ≤ 2 ^ e / 2 := by
  have hpos : 0 < den * Nat.pow 2 e.toNat := Nat.mul_pos hden (Nat.pow_pos Nat.two_pos)
  have hnear := roundDiv_dist (num * Nat.pow 2 (-e).toNat) hpos
  have hden' : (0 : ℚ) < den := by exact_mod_cast hden
  have hscale : (0 : ℚ) < den * 2 ^ (-e).toNat := by positivity
  have hdiff : (mantissaAt num den e : ℚ) * 2 ^ e - num / den =
      (mantissaAt num den e * (den * 2 ^ e.toNat) - num * 2 ^ (-e).toNat) / (den * 2 ^ (-e).toNat) := by
    rw [two_zpow_eq e]
    field_simp
  push_cast [Nat.pow_eq] at hnear
  rw [hdiff, abs_div, abs_of_pos hscale, div_le_iff₀ hscale, two_zpow_eq e]
  refine hnear.trans (le_of_eq ?_)
  field_simp

/-- A quotient lies between two neighbouring powers of two times the one that the lengths of its parts give. -/
theorem le_quotient (hnum : 0 < num) (hden : 0 < den) :
    (2 : ℚ) ^ 52 * 2 ^ ((num.log2 : ℤ) - den.log2 - 53) ≤ num / den := by
  have hnum' : (2 : ℚ) ^ num.log2 ≤ num := by exact_mod_cast Nat.log2_self_le hnum.ne'
  have hden' : (den : ℚ) ≤ 2 ^ (den.log2 + 1) := by exact_mod_cast Nat.lt_log2_self.le
  rw [le_div_iff₀ (by exact_mod_cast hden)]
  calc (2 : ℚ) ^ 52 * 2 ^ ((num.log2 : ℤ) - den.log2 - 53) * den ≤
        2 ^ 52 * 2 ^ ((num.log2 : ℤ) - den.log2 - 53) * 2 ^ (den.log2 + 1) := by gcongr
    _ = 2 ^ num.log2 := by
      rw [← zpow_natCast, ← zpow_natCast, ← zpow_natCast, ← zpow_add₀ two_ne_zero, ← zpow_add₀ two_ne_zero]
      congr 1
      push_cast
      omega
    _ ≤ num := hnum'

theorem quotient_lt (num : ℕ) (hden : 0 < den) :
    (num : ℚ) / den < 2 ^ 53 * 2 ^ ((num.log2 : ℤ) - den.log2 - 53 + 1) := by
  have hnum' : (num : ℚ) < 2 ^ (num.log2 + 1) := by exact_mod_cast Nat.lt_log2_self
  have hden' : (2 : ℚ) ^ den.log2 ≤ den := by exact_mod_cast Nat.log2_self_le hden.ne'
  rw [div_lt_iff₀ (by exact_mod_cast hden)]
  calc (num : ℚ) < 2 ^ (num.log2 + 1) := hnum'
    _ = 2 ^ 53 * 2 ^ ((num.log2 : ℤ) - den.log2 - 53 + 1) * 2 ^ den.log2 := by
      rw [← zpow_natCast, ← zpow_natCast, ← zpow_natCast, ← zpow_add₀ two_ne_zero, ← zpow_add₀ two_ne_zero]
      congr 1
      push_cast
      omega
    _ ≤ 2 ^ 53 * 2 ^ ((num.log2 : ℤ) - den.log2 - 53 + 1) * den := by gcongr

/-- Whether a quotient fits the mantissa at an exponent can be told by integers. -/
theorem scaled_lt_iff (num : ℕ) (hden : 0 < den) (e : ℤ) :
    num * Nat.pow 2 (-e).toNat < Nat.pow 2 53 * (den * Nat.pow 2 e.toNat) ↔ (num : ℚ) / den < 2 ^ 53 * 2 ^ e := by
  have hden' : (0 : ℚ) < den := by exact_mod_cast hden
  have hpos : (0 : ℚ) < 2 ^ (-e).toNat := by positivity
  rw [two_zpow_eq e, ← mul_div_assoc, div_lt_div_iff₀ hden' hpos, ← Nat.cast_lt (α := ℚ)]
  push_cast [Nat.pow_eq]
  norm_num [mul_assoc, mul_comm (2 ^ e.toNat : ℚ)]

theorem exponentOf_scale (hnum : 0 < num) (hden : 0 < den) : Scale (num / den) (exponentOf num den) := by
  have hmono {e e' : ℤ} (h : e ≤ e') : (2 : ℚ) ^ 53 * 2 ^ e ≤ 2 ^ 53 * 2 ^ e' :=
    mul_le_mul_of_nonneg_left (zpow_le_zpow_right₀ one_le_two h) (by positivity)
  obtain ⟨exact, heq, hfull, hfits⟩ : ∃ exact : ℤ, exponentOf num den = max exact (-1074) ∧
      (2 : ℚ) ^ 52 * 2 ^ exact ≤ num / den ∧ (num : ℚ) / den < 2 ^ 53 * 2 ^ exact := by
    refine ⟨_, rfl, ?_⟩
    split
    · rename_i hfits
      exact ⟨le_quotient hnum hden, (scaled_lt_iff num hden _).mp hfits⟩
    · rename_i hcoarse
      refine ⟨?_, quotient_lt num hden⟩
      rw [zpow_add_one₀ two_ne_zero]
      linarith [not_lt.mp ((scaled_lt_iff num hden _).not.mp hcoarse)]
  rw [heq]
  refine ⟨le_max_right _ _, ?_, hfits.trans_le (hmono (le_max_left _ _))⟩
  rcases le_total exact (-1074) with hle | hge
  · exact .inl (max_eq_right hle)
  · exact .inr (by rwa [max_eq_left hge])

/-- A quotient is rounded to a mantissa of at most 53 places, or up to the next power of two. -/
theorem ofRatio_cases (negative : Bool) (hnum : 0 < num) (hden : 0 < den) :
    ∃ (m : ℕ) (e : ℤ), Scale (num / den) e ∧ |(m : ℚ) * 2 ^ e - num / den| ≤ 2 ^ e / 2 ∧
      (m < 2 ^ 53 ∧ ofRatio negative num den = (if 971 < e then .infinite negative else .finite negative m e) ∨
        m = 2 ^ 53 ∧ ofRatio negative num den =
          if 971 < e + 1 then .infinite negative else .finite negative (2 ^ 52) (e + 1)) := by
  have hs := exponentOf_scale hnum hden
  have hm := mantissaAt_dist num hden (exponentOf num den)
  refine ⟨mantissaAt num den (exponentOf num den), _, hs, hm, ?_⟩
  rw [ofRatio, if_neg hnum.ne']
  by_cases hfull : mantissaAt num den (exponentOf num den) = 2 ^ 53
  · exact .inr ⟨hfull, by simp only [Nat.pow_eq, if_pos hfull]⟩
  · refine .inl ⟨lt_of_le_of_ne ?_ hfull, by simp only [Nat.pow_eq, if_neg hfull]⟩
    have hpos : (0 : ℚ) < 2 ^ exponentOf num den := by positivity
    have hlt : (mantissaAt num den (exponentOf num den) : ℚ) < 2 ^ 53 + 1 := by
      refine lt_of_mul_lt_mul_right ?_ hpos.le
      linarith [(abs_le.mp hm).2, hs.fits]
    exact Nat.lt_succ_iff.mp (by exact_mod_cast hlt)

/-- A finite result is a multiple of the power of two at which the quotient is rounded. -/
theorem exists_ofRatio_value {negative : Bool} (hnum : 0 < num) (hden : 0 < den)
    (hfinite : (ofRatio negative num den).isFinite = true) : (ofRatio negative num den).IsNumber ∧
      ∃ (m : ℕ) (e : ℤ), Scale (num / den) e ∧ |(m : ℚ) * 2 ^ e - num / den| ≤ 2 ^ e / 2 ∧
        (ofRatio negative num den).value = sign negative * (m * 2 ^ e) := by
  obtain ⟨m, e, hs, hm, ⟨hlt, heq⟩ | ⟨rfl, heq⟩⟩ := ofRatio_cases negative hnum hden
  · rw [heq] at hfinite ⊢
    split at hfinite
    · cases hfinite
    · rename_i hmost
      rw [if_neg hmost]
      exact ⟨⟨hlt, hs.least, not_lt.mp hmost⟩, m, e, hs, hm, rfl⟩
  · rw [heq] at hfinite ⊢
    split at hfinite
    · cases hfinite
    · rename_i hmost
      rw [if_neg hmost]
      refine ⟨⟨by norm_num, by linarith [hs.least], not_lt.mp hmost⟩, 2 ^ 53, e, hs, hm, ?_⟩
      rw [value, zpow_add_one₀ two_ne_zero]
      push_cast
      ring

theorem abs_sign_mul_sub (negative : Bool) (q r : ℚ) : |sign negative * q - sign negative * r| = |q - r| := by
  rw [← mul_sub, abs_mul]
  cases negative <;> simp [sign]

theorem ofRatio_nearest (negative : Bool) (hden : 0 < den) (hfinite : (ofRatio negative num den).isFinite = true) :
    (ofRatio negative num den).Nearest (sign negative * (num / den)) := by
  rcases Nat.eq_zero_or_pos num with rfl | hnum
  · have hzero : ofRatio negative 0 den = .finite negative 0 (-1074) := rfl
    rw [hzero]
    exact ⟨⟨by norm_num, by norm_num, by norm_num⟩, fun y _ => by simp [value]⟩
  obtain ⟨hnumber, m, e, hs, hm, hvalue⟩ := exists_ofRatio_value hnum hden hfinite
  refine ⟨hnumber, fun y hy => ?_⟩
  obtain ⟨k, f, hk, hf, -, hy⟩ := hy.exists_mantissa
  obtain ⟨k', hk', hy'⟩ : ∃ k' : ℤ, |(k' : ℚ)| < 2 ^ 53 ∧ y.value = sign negative * (k' * 2 ^ f) := by
    cases negative with
    | false => exact ⟨k, hk, by simp [hy, sign]⟩
    | true => exact ⟨-k, by simpa using hk, by simp [hy, sign]⟩
  rw [hvalue, hy', abs_sign_mul_sub, abs_sign_mul_sub]
  exact hs.dist_le hm hk' hf

theorem ofRatio_eq_infinite {negative : Bool} (hden : 0 < den) (h : (ofRatio negative num den).isFinite = false) :
    ofRatio negative num den = .infinite negative := by
  rcases Nat.eq_zero_or_pos num with rfl | hnum
  · cases h
  obtain ⟨m, e, -, -, ⟨-, heq⟩ | ⟨-, heq⟩⟩ := ofRatio_cases negative hnum hden
  all_goals
    rw [heq] at h ⊢
    split at h
    · rename_i hlarge
      rw [if_pos hlarge]
    · cases h

/-- Below this quotient nothing is rounded to infinity. -/
def overflow : ℚ := (2 ^ 54 - 1) * 2 ^ (970 : ℤ)

theorem two_pow_lt_overflow : (2 : ℚ) ^ 53 < overflow := by
  have hpower : (1 : ℚ) ≤ 2 ^ (970 : ℤ) := one_le_zpow₀ one_le_two (by norm_num)
  calc (2 : ℚ) ^ 53 < (2 ^ 54 - 1) * 1 := by norm_num
    _ ≤ overflow := mul_le_mul_of_nonneg_left hpower (by norm_num)

theorem isFinite_ofRatio (negative : Bool) (hden : 0 < den) (h : (num : ℚ) / den < overflow) :
    (ofRatio negative num den).isFinite = true := by
  rcases Nat.eq_zero_or_pos num with rfl | hnum
  · rfl
  obtain ⟨m, e, hs, hm, hcases⟩ := ofRatio_cases negative hnum hden
  have hone : (2 : ℚ) ^ (971 : ℤ) = 2 ^ (970 : ℤ) * 2 := zpow_add_one₀ two_ne_zero 970
  have htwo : (2 : ℚ) ^ (972 : ℤ) = 2 ^ (971 : ℤ) * 2 := zpow_add_one₀ two_ne_zero 971
  have hpos : (0 : ℚ) < 2 ^ (970 : ℤ) := by positivity
  have hmost : e ≤ 971 := by
    by_contra hlarge
    have hfull : (2 : ℚ) ^ 52 * 2 ^ e ≤ num / den := hs.full.resolve_left (by omega)
    have hpower : (2 : ℚ) ^ (972 : ℤ) ≤ 2 ^ e := zpow_le_zpow_right₀ one_le_two (by omega)
    rw [htwo, hone] at hpower
    unfold overflow at h
    generalize (2 : ℚ) ^ (970 : ℤ) = power at h hpos hpower
    linarith
  rcases hcases with ⟨-, heq⟩ | ⟨rfl, heq⟩
  · rw [heq, if_neg (not_lt.mpr hmost)]
    rfl
  · have hlast : e ≠ 971 := by
      rintro rfl
      have hlow := (abs_le.mp hm).2
      rw [hone] at hlow
      unfold overflow at h
      generalize (2 : ℚ) ^ (970 : ℤ) = power at h hpos hlow
      push_cast at hlow
      linarith
    rw [heq, if_neg (by omega)]
    rfl

theorem sign_mul_natAbs (n : ℤ) (den : ℕ) : sign (decide (n < 0)) * (n.natAbs / den) = n / den := by
  rw [Nat.cast_natAbs, sign]
  by_cases hn : n < 0
  · simp [hn, abs_of_neg hn, neg_div]
  · simp [hn, abs_of_nonneg (not_lt.mp hn)]

theorem ofQuotient_nearest {n : ℤ} (hden : 0 < den) (hfinite : (ofQuotient n den).isFinite = true) :
    (ofQuotient n den).Nearest (n / den) :=
  sign_mul_natAbs n den ▸ ofRatio_nearest _ hden hfinite

theorem isFinite_ofQuotient {n : ℤ} (hden : 0 < den) (h : |(n : ℚ) / den| < overflow) :
    (ofQuotient n den).isFinite = true := by
  refine isFinite_ofRatio _ hden ?_
  rwa [abs_div, Nat.abs_cast, ← Int.cast_abs, ← Nat.cast_natAbs] at h

end Rounding

/-- An integer that fits the mantissa is a number. -/
theorem ofNat_eq {n : ℕ} (h : n < 2 ^ 53) : (ofInt n).IsNumber ∧ (ofInt n).value = n := by
  have hsmall : |((n : ℤ) : ℚ) / (1 : ℕ)| < overflow := by
    have hn : (n : ℚ) < 2 ^ 53 := by exact_mod_cast h
    rw [Nat.cast_one, div_one, Int.cast_natCast, Nat.abs_cast]
    exact hn.trans two_pow_lt_overflow
  have hnearest : (ofInt n).Nearest ((n : ℤ) / (1 : ℕ)) := ofQuotient_nearest one_pos (isFinite_ofQuotient one_pos hsmall)
  rw [Nat.cast_one, div_one, Int.cast_natCast] at hnearest
  have hexact : IsNumber (.finite false n 0) := ⟨h, by norm_num, by norm_num⟩
  exact ⟨hnearest.isNumber, hnearest.exact hexact (by simp [value, sign])⟩

section Arithmetic

theorem exists_quotient (hx : x.isFinite = true) :
    ∃ (a : ℤ) (b : ℕ), x.quotient? = some (a, b) ∧ 0 < b ∧ x.value = a / b := by
  cases x with
  | finite negative m e =>
    refine ⟨_, _, rfl, Nat.pow_pos Nat.two_pos, ?_⟩
    rw [value, two_zpow_eq e]
    cases negative <;> simp [sign] <;> ring
  | infinite => cases hx
  | undefined => cases hx

theorem le_iff (hx : x.isFinite = true) (hy : y.isFinite = true) : x.le y = true ↔ x.value ≤ y.value := by
  obtain ⟨a, b, hxq, hb, hxv⟩ := exists_quotient hx
  obtain ⟨c, d, hyq, hd, hyv⟩ := exists_quotient hy
  have hb' : (0 : ℚ) < b := by exact_mod_cast hb
  have hd' : (0 : ℚ) < d := by exact_mod_cast hd
  simp only [le, hxq, hyq, decide_eq_true_eq]
  rw [hxv, hyv, div_le_div_iff₀ hb' hd']
  exact_mod_cast Iff.rfl

theorem lt_iff (hx : x.isFinite = true) (hy : y.isFinite = true) : x.lt y = true ↔ x.value < y.value := by
  rw [lt, Bool.and_eq_true, Bool.not_eq_true', ← Bool.not_eq_true, le_iff hx hy, le_iff hy hx, not_le]
  exact ⟨And.right, fun h => ⟨h.le, h⟩⟩

/-- A third number may be infinite. -/
theorem le_of_value_le {z : Binary64} (hx : x.isFinite = true) (hy : y.isFinite = true) (hxy : x.value ≤ y.value)
    (hyz : y.le z = true) : x.le z = true := by
  cases z with
  | finite negative m e => exact (le_iff hx rfl).mpr (hxy.trans ((le_iff hy rfl).mp hyz))
  | infinite negative =>
    cases x <;> cases y <;> simp_all [le, quotient?, isFinite]
  | undefined =>
    cases y <;> simp_all [le, quotient?, isFinite]

theorem max_eq (hx : x.IsNumber) (hy : y.IsNumber) :
    (x.max y).IsNumber ∧ (x.max y).value = Max.max x.value y.value := by
  unfold Binary64.max
  split
  · rename_i hlt
    exact ⟨hy, (max_eq_right ((lt_iff hx.isFinite hy.isFinite).mp hlt).le).symm⟩
  · rename_i hge
    exact ⟨hx, (max_eq_left (not_lt.mp ((lt_iff hx.isFinite hy.isFinite).not.mp hge))).symm⟩

/-- The least one of some numbers is among them, and none of them lies below it. -/
theorem least_spec (rest : List Binary64) (hx : x.IsNumber) (hrest : ∀ y ∈ rest, y.IsNumber) :
    least x rest ∈ x :: rest ∧ ∀ y ∈ x :: rest, (least x rest).value ≤ y.value := by
  induction rest generalizing x with
  | nil => simp [least]
  | cons y rest ih =>
    rw [List.forall_mem_cons] at hrest
    obtain ⟨hy, hrest⟩ := hrest
    rw [least]
    split
    · rename_i hlt
      obtain ⟨hmem, hle⟩ := ih hy hrest
      refine ⟨List.mem_cons_of_mem _ hmem, List.forall_mem_cons.mpr ⟨?_, hle⟩⟩
      exact (hle y List.mem_cons_self).trans ((lt_iff hy.isFinite hx.isFinite).mp hlt).le
    · rename_i hge
      obtain ⟨hmem, hle⟩ := ih hx hrest
      rw [List.forall_mem_cons] at hle
      refine ⟨?_, ?_⟩
      · rcases List.mem_cons.mp hmem with heq | hmem
        · rw [heq]
          exact List.mem_cons_self
        · exact List.mem_cons_of_mem _ (List.mem_cons_of_mem _ hmem)
      · simp only [List.forall_mem_cons]
        exact ⟨hle.1, hle.1.trans (not_lt.mp ((lt_iff hy.isFinite hx.isFinite).not.mp hge)), hle.2⟩

theorem neg_eq (hx : x.IsNumber) : x.neg.IsNumber ∧ x.neg.value = -x.value := by
  cases x with
  | finite negative m e => exact ⟨hx, by cases negative <;> simp [neg, value, sign]⟩
  | infinite => cases hx
  | undefined => cases hx

/-- The integer above a number is exact. -/
theorem ceil?_eq (hx : x.IsNumber) : x.ceil? = some ⌈x.value⌉ := by
  obtain ⟨a, b, hxq, -, hxv⟩ := exists_quotient hx.isFinite
  rw [ceil?, hxq, hxv, Rat.ceil_intCast_div_natCast]
  rfl

/-- A sum is a quotient that is rounded. -/
theorem exists_add_eq (hx : x.IsNumber) (hy : y.IsNumber) :
    ∃ (n : ℤ) (den : ℕ), 0 < den ∧ x.add y = ofQuotient n den ∧ x.value + y.value = n / den := by
  obtain ⟨a, b, hxq, hb, hxv⟩ := exists_quotient hx.isFinite
  obtain ⟨c, d, hyq, hd, hyv⟩ := exists_quotient hy.isFinite
  have hb' : (b : ℚ) ≠ 0 := by exact_mod_cast hb.ne'
  have hd' : (d : ℚ) ≠ 0 := by exact_mod_cast hd.ne'
  refine ⟨a * d + c * b, b * d, Nat.mul_pos hb hd, by simp only [add, hxq, hyq], ?_⟩
  rw [hxv, hyv]
  push_cast
  field_simp

theorem add_nearest (hx : x.IsNumber) (hy : y.IsNumber) (hfinite : (x.add y).isFinite = true) :
    (x.add y).Nearest (x.value + y.value) := by
  obtain ⟨n, den, hden, heq, hvalue⟩ := exists_add_eq hx hy
  rw [heq] at hfinite ⊢
  rw [hvalue]
  exact ofQuotient_nearest hden hfinite

theorem isFinite_add (hx : x.IsNumber) (hy : y.IsNumber) (h : |x.value + y.value| < overflow) :
    (x.add y).isFinite = true := by
  obtain ⟨n, den, hden, heq, hvalue⟩ := exists_add_eq hx hy
  rw [heq]
  exact isFinite_ofQuotient hden (hvalue ▸ h)

/-- No number is so large that an integer could not be added. -/
theorem add_ofNat_nearest (hx : x.IsNumber) {n : ℕ} (hn : n < 2 ^ 53) : (x.add (.ofInt n)).Nearest (x.value + n) := by
  obtain ⟨hnumber, hvalue⟩ := ofNat_eq hn
  rw [← hvalue]
  refine add_nearest hx hnumber (isFinite_add hx hnumber ?_)
  have hn' : (n : ℚ) < 2 ^ 53 := by exact_mod_cast hn
  have hstep : (2 : ℚ) ^ (971 : ℤ) = 2 ^ (970 : ℤ) * 2 := zpow_add_one₀ two_ne_zero 970
  have hroom : (2 : ℚ) ^ (53 : ℤ) ≤ 2 ^ (970 : ℤ) := zpow_le_zpow_right₀ one_le_two (by norm_num)
  calc |x.value + (ofInt n).value| ≤ |x.value| + |(n : ℚ)| := hvalue ▸ abs_add_le _ _
    _ = |x.value| + n := by rw [Nat.abs_cast]
    _ < (2 ^ 53 - 1) * 2 ^ (971 : ℤ) + 2 ^ 53 := add_lt_add_of_le_of_lt hx.abs_value_le hn'
    _ ≤ (2 ^ 53 - 1) * 2 ^ (971 : ℤ) + 2 ^ (970 : ℤ) := by gcongr; exact_mod_cast hroom
    _ = overflow := by
      rw [hstep, overflow]
      ring

theorem sub_nearest (hx : x.IsNumber) (hy : y.IsNumber) (hfinite : (x.sub y).isFinite = true) :
    (x.sub y).Nearest (x.value - y.value) := by
  obtain ⟨hneg, hvalue⟩ := neg_eq hy
  rw [sub_eq_add_neg, ← hvalue]
  exact add_nearest hx hneg hfinite

theorem isFinite_sub (hx : x.IsNumber) (hy : y.IsNumber) (h : |x.value - y.value| < overflow) :
    (x.sub y).isFinite = true := by
  obtain ⟨hneg, hvalue⟩ := neg_eq hy
  rw [sub_eq_add_neg, ← hvalue] at h
  exact isFinite_add hx hneg h

/-- A difference that is too large is infinite and has the sign of the exact one. -/
theorem sub_eq_infinite (hx : x.IsNumber) (hy : y.IsNumber) (h : (x.sub y).isFinite = false) :
    x.sub y = .infinite (decide (x.value < y.value)) := by
  obtain ⟨hneg, hvalue⟩ := neg_eq hy
  obtain ⟨n, den, hden, heq, hsum⟩ := exists_add_eq hx hneg
  have hden' : (0 : ℚ) < den := by exact_mod_cast hden
  have hsign : n < 0 ↔ x.value < y.value := by
    rw [hvalue, ← sub_eq_add_neg] at hsum
    rw [← sub_neg (a := x.value), hsum, div_neg_iff]
    simp [hden', hden'.not_gt]
  rw [sub, heq] at h ⊢
  rw [ofQuotient, ofRatio_eq_infinite hden h]
  simp only [hsign]

end Arithmetic
end Binary64
end NamespaceOwnership.Number
