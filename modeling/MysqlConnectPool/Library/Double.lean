import Mathlib.Algebra.Order.Ring.Int
import Mathlib.Data.Nat.Log

/-! Integers as doubles: the nearest integer with 53 significant bits, ties to even. -/

namespace MysqlConnectPool.Library.Double

/-- The nearest multiple of `ulp`, at a tie the one whose quotient is even. -/
def roundTo (ulp n : Int) : Int :=
  if 2 * (n % ulp) < ulp ∨ 2 * (n % ulp) = ulp ∧ n / ulp % 2 = 0 then n / ulp * ulp
  else (n / ulp + 1) * ulp

def ulp (n : Int) : Int := 2 ^ (n.natAbs.log2 + 1 - 53)

def toDouble (n : Int) : Int := roundTo (ulp n) n

theorem roundTo_one (n : Int) : roundTo 1 n = n := by
  simp [roundTo]

theorem roundTo_near {ulp n : Int} (h : 0 < ulp) :
    n - ulp < roundTo ulp n ∧ roundTo ulp n < n + ulp := by
  have hn := Int.mul_ediv_add_emod n ulp
  have hpos := Int.emod_nonneg n h.ne'
  have hlt := Int.emod_lt_of_pos n h
  rw [Int.mul_comm] at hn
  rw [roundTo]
  split
  · omega
  · rw [Int.add_mul]
    omega

theorem ulp_pos (n : Int) : 0 < ulp n := Int.pow_pos (by decide)

theorem ulp_eq_one {n : Int} (h : n.natAbs < 2 ^ 53) : ulp n = 1 := by
  have hlog : n.natAbs.log2 < 53 := by
    by_cases hn : n.natAbs = 0
    · simp [hn]
    · exact (Nat.log2_lt hn).mpr h
  rw [ulp, Nat.sub_eq_zero_of_le hlog, Int.pow_zero]

theorem ulp_eq_two {n : Int} (h₁ : 2 ^ 53 ≤ n.natAbs) (h₂ : n.natAbs < 2 ^ 54) : ulp n = 2 := by
  have hn : n.natAbs ≠ 0 := by omega
  have hlog : n.natAbs.log2 = 53 := by
    have := (Nat.le_log2 hn).mpr h₁
    have := (Nat.log2_lt hn).mpr h₂
    omega
  rw [ulp, hlog]
  rfl

theorem toDouble_eq_self {n : Int} (h : n.natAbs < 2 ^ 53) : toDouble n = n := by
  rw [toDouble, ulp_eq_one h, roundTo_one]

theorem toDouble_even {n : Int} (h : n.natAbs < 2 ^ 54) (heven : n % 2 = 0) : toDouble n = n := by
  by_cases hsmall : n.natAbs < 2 ^ 53
  · exact toDouble_eq_self hsmall
  · rw [toDouble, ulp_eq_two (by omega) h, roundTo, if_pos (by omega)]
    omega

theorem toDouble_odd {n : Int} (h₁ : 2 ^ 53 ≤ n.natAbs) (h₂ : n.natAbs < 2 ^ 54)
    (hodd : n % 2 ≠ 0) : toDouble n % 2 = 0 ∧ (toDouble n = n - 1 ∨ toDouble n = n + 1) := by
  rw [toDouble, ulp_eq_two h₁ h₂, roundTo]
  split <;> omega

theorem toDouble_eq_iff {n : Int} (h : n.natAbs < 2 ^ 54) :
    toDouble n = n ↔ n.natAbs < 2 ^ 53 ∨ n % 2 = 0 := by
  constructor
  · intro heq
    by_contra hor
    have hodd := toDouble_odd (n := n) (by omega) h (by omega)
    omega
  · rintro (hsmall | heven)
    · exact toDouble_eq_self hsmall
    · exact toDouble_even h heven

theorem toDouble_near {n : Int} (h : n.natAbs < 2 ^ 54) :
    n - 1 ≤ toDouble n ∧ toDouble n ≤ n + 1 := by
  by_cases hsmall : n.natAbs < 2 ^ 53
  · rw [toDouble_eq_self hsmall]
    omega
  · have hnear := roundTo_near (n := n) (ulp_pos n)
    rw [← toDouble, ulp_eq_two (by omega) h] at hnear
    omega

theorem toDouble_negative {n : Int} (h : n < -1) :
    3 * n < 2 * toDouble n ∧ 2 * toDouble n < n := by
  have hn : n.natAbs ≠ 0 := by omega
  have hlog : 1 ≤ n.natAbs.log2 := (Nat.le_log2 hn).mpr (by omega)
  have hulp : 2 * ulp n ≤ -n := by
    have hpow : 2 * 2 ^ (n.natAbs.log2 + 1 - 53) ≤ n.natAbs := by
      calc 2 * 2 ^ (n.natAbs.log2 + 1 - 53) = 2 ^ (n.natAbs.log2 + 1 - 53 + 1) := by
            rw [Nat.pow_succ, Nat.mul_comm]
        _ ≤ 2 ^ n.natAbs.log2 := Nat.pow_le_pow_right (by decide) (by omega)
        _ ≤ n.natAbs := Nat.log2_self_le hn
    have hcast : ulp n = ((2 ^ (n.natAbs.log2 + 1 - 53) : Nat) : Int) := by
      rw [ulp]
      push_cast
      rfl
    omega
  have hnear : n - ulp n < toDouble n ∧ toDouble n < n + ulp n := roundTo_near (ulp_pos n)
  omega

end MysqlConnectPool.Library.Double
