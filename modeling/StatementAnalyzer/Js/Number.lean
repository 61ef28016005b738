/-
JavaScript numbers, as far as sequences of digits denote them: a double holds
53 bits, so a larger number is rounded.
-/
import Mathlib.Algebra.Order.Ring.Nat
import Mathlib.Data.Nat.Log
import Mathlib.Order.WithBot

namespace StatementAnalyzer

/-- The multiple of `2 ^ e` nearest to `n`, and of two the even one. -/
def roundTo (e n : Nat) : Nat :=
  let quotient := n / 2 ^ e
  let rest := n % 2 ^ e
  if 2 ^ e < 2 * rest ∨ 2 * rest = 2 ^ e ∧ quotient % 2 = 1 then
    (quotient + 1) * 2 ^ e
  else quotient * 2 ^ e

/-- The number value for `n`, with `⊤` for `Infinity`. -/
def toNumber (n : Nat) : WithTop Nat :=
  let value := roundTo (n.log2 - 52) n
  if value < 2 ^ 1024 then value else ⊤

example : toNumber 9007199254740993 = toNumber 9007199254740992 := by
  decide +kernel

theorem roundTo_mul (e quotient : Nat) :
    roundTo e (quotient * 2 ^ e) = quotient * 2 ^ e := by
  have hpos : 0 < 2 ^ e := Nat.two_pow_pos e
  simp [roundTo, Nat.mul_div_cancel _ hpos, hpos.ne]

theorem roundTo_two_pow {e k : Nat} (h : e ≤ k) : roundTo e (2 ^ k) = 2 ^ k := by
  rw [← Nat.sub_add_cancel h, Nat.pow_add]
  exact roundTo_mul e _

theorem le_roundTo (e n : Nat) : n / 2 ^ e * 2 ^ e ≤ roundTo e n := by
  simp only [roundTo]
  split
  · exact Nat.mul_le_mul_right _ (Nat.le_succ _)
  · exact le_rfl

theorem roundTo_le (e n : Nat) : roundTo e n ≤ (n / 2 ^ e + 1) * 2 ^ e := by
  simp only [roundTo]
  split
  · exact le_rfl
  · exact Nat.mul_le_mul_right _ (Nat.le_succ _)

theorem roundTo_mono (e : Nat) {n m : Nat} (h : n ≤ m) :
    roundTo e n ≤ roundTo e m := by
  have hquotient : n / 2 ^ e ≤ m / 2 ^ e := Nat.div_le_div_right h
  rcases hquotient.lt_or_eq with hlt | heq
  · calc roundTo e n ≤ (n / 2 ^ e + 1) * 2 ^ e := roundTo_le e n
      _ ≤ m / 2 ^ e * 2 ^ e := Nat.mul_le_mul_right _ hlt
      _ ≤ roundTo e m := le_roundTo e m
  · -- on one quotient, the greater rest is rounded up as well
    have hrest : n % 2 ^ e ≤ m % 2 ^ e := by
      have hn := Nat.div_add_mod n (2 ^ e)
      have hm := Nat.div_add_mod m (2 ^ e)
      rw [heq] at hn
      omega
    simp only [roundTo, heq]
    split
    · rw [if_pos (by omega)]
    · exact le_roundTo e m

/-- A power of two between two numbers stays between them. -/
theorem roundTo_log2_mono {n m : Nat} (h : n ≤ m) :
    roundTo (n.log2 - 52) n ≤ roundTo (m.log2 - 52) m := by
  have hlog : n.log2 ≤ m.log2 := by
    rw [Nat.log2_eq_log_two, Nat.log2_eq_log_two]
    exact Nat.log_mono_right h
  rcases hlog.lt_or_eq with hlt | heq
  · have hm : m ≠ 0 := by
      rintro rfl
      simp at hlt
    calc roundTo (n.log2 - 52) n
        ≤ roundTo (n.log2 - 52) (2 ^ m.log2) := by
          apply roundTo_mono
          exact (Nat.lt_log2_self.trans_le
            (Nat.pow_le_pow_right (by omega) hlt)).le
      _ = 2 ^ m.log2 := roundTo_two_pow (by omega)
      _ = roundTo (m.log2 - 52) (2 ^ m.log2) := (roundTo_two_pow (by omega)).symm
      _ ≤ roundTo (m.log2 - 52) m := roundTo_mono _ (Nat.log2_self_le hm)
  · rw [heq]
    exact roundTo_mono _ h

theorem toNumber_mono {n m : Nat} (h : n ≤ m) : toNumber n ≤ toNumber m := by
  have hround := roundTo_log2_mono h
  simp only [toNumber]
  split
  · split
    · exact WithTop.coe_le_coe.mpr hround
    · exact le_top
  · rw [if_neg (by omega)]

/-- Rounding may make two numbers equal, but does not reorder them. -/
theorem lt_of_toNumber_lt {n m : Nat} (h : toNumber n < toNumber m) : n < m := by
  by_contra hle
  exact absurd (toNumber_mono (Nat.le_of_not_lt hle)) (not_le_of_gt h)

end StatementAnalyzer
