/-
The doubles among the rationals: the number value for an exact result is the
double nearest to it.
-/
import Mathlib.Data.Int.Log
import Mathlib.Data.Rat.Floor
import Mathlib.Tactic.Linarith
import Mathlib.Tactic.NormNum

namespace StatementAnalyzer

/-- The nearest integer, and of two the even one. -/
def roundHalfEven (x : ℚ) : Int :=
  if Int.fract x < 1 / 2 then ⌊x⌋
  else if 1 / 2 < Int.fract x then ⌊x⌋ + 1
  else if ⌊x⌋ % 2 = 0 then ⌊x⌋
  else ⌊x⌋ + 1

/-- The weight, as a power of two, of the last of the 53 bits; that of a
subnormal number is the least. -/
def lastBit (x : ℚ) : Int :=
  max (Int.log 2 |x| - 52) (-1074)

/-- The number value for `x`, where it is finite. -/
def nearestDouble (x : ℚ) : ℚ :=
  roundHalfEven (x / 2 ^ lastBit x) * (2 : ℚ) ^ lastBit x

/-- The number value for `x`, `none` where it is not finite. -/
def toDouble (x : ℚ) : Option ℚ :=
  let value := nearestDouble x
  if |value| < 2 ^ (1024 : Nat) then some value else none

/-- `x` is a finite number itself. -/
def IsDouble (x : ℚ) : Prop := toDouble x = some x

instance (x : ℚ) : Decidable (IsDouble x) :=
  inferInstanceAs (Decidable (toDouble x = some x))

example : IsDouble 9007199254740992 ∧ ¬IsDouble 9007199254740993 := by
  decide +kernel

@[simp] theorem roundHalfEven_intCast (n : Int) : roundHalfEven n = n := by
  simp [roundHalfEven]

/-- Rounding goes to one of the two neighbours. -/
theorem roundHalfEven_mem (x : ℚ) :
    ⌊x⌋ ≤ roundHalfEven x ∧ (roundHalfEven x : ℚ) < x + 1 := by
  have hfloor := Int.floor_le x
  have hfract := Int.floor_add_fract x
  rw [roundHalfEven]
  split
  · exact ⟨le_rfl, by linarith⟩
  · split
    · refine ⟨by omega, ?_⟩
      push_cast
      linarith
    · split
      · exact ⟨le_rfl, by linarith⟩
      · refine ⟨by omega, ?_⟩
        push_cast
        linarith

/-- It is off by one half at most. -/
theorem abs_roundHalfEven_sub_le (x : ℚ) :
    |(roundHalfEven x : ℚ) - x| ≤ 1 / 2 := by
  have hfract := Int.floor_add_fract x
  have hnonneg := Int.fract_nonneg x
  have hlt := Int.fract_lt_one x
  rw [roundHalfEven, abs_le]
  split
  · constructor <;> linarith
  · split
    · push_cast
      constructor <;> linarith
    · have hhalf : Int.fract x = 1 / 2 := by linarith
      split
      · constructor <;> linarith
      · push_cast
        constructor <;> linarith

theorem roundHalfEven_mono {x y : ℚ} (h : x ≤ y) :
    roundHalfEven x ≤ roundHalfEven y := by
  by_contra hlt
  have hstep : (roundHalfEven y + 1 : ℤ) ≤ roundHalfEven x := by omega
  have hcast : (roundHalfEven y : ℚ) + 1 ≤ roundHalfEven x := by
    exact_mod_cast hstep
  obtain ⟨_, habove⟩ := abs_le.mp (abs_roundHalfEven_sub_le x)
  obtain ⟨hbelow, _⟩ := abs_le.mp (abs_roundHalfEven_sub_le y)
  have hsame : x = y := by linarith
  rw [hsame] at hlt
  exact hlt le_rfl

theorem abs_roundHalfEven_le {x : ℚ} {n : Int} (h : |x| ≤ n) :
    |roundHalfEven x| ≤ n := by
  obtain ⟨hlow, hhigh⟩ := abs_le.mp h
  obtain ⟨hfloor, hround⟩ := roundHalfEven_mem x
  rw [abs_le]
  constructor
  · have hle : -n ≤ ⌊x⌋ := by
      apply Int.le_floor.mpr
      push_cast
      exact hlow
    omega
  · have hlt : (roundHalfEven x : ℚ) < (n + 1 : Int) := by
      push_cast
      linarith
    have hlt := Int.cast_lt.mp hlt
    omega

theorem two_zpow_pos (e : Int) : (0 : ℚ) < 2 ^ e :=
  zpow_pos (by norm_num) e

/-- Fifty-three bits reach beyond the number. -/
theorem abs_lt_lastBit (x : ℚ) : |x| < 2 ^ (lastBit x + 53) := by
  have hlog := Int.lt_zpow_succ_log_self (by omega : 1 < 2) |x|
  apply hlog.trans_le
  apply zpow_le_zpow_right₀ (by norm_num)
  rw [lastBit]
  omega

/-- A multiple of a power of two within 53 bits is its own number value. -/
theorem roundHalfEven_mul_zpow {m e : Int} (he : -1074 ≤ e)
    (hm : |(m * 2 ^ e : ℚ)| ≤ 2 ^ (e + 53)) :
    (roundHalfEven (m * 2 ^ e / 2 ^ lastBit (m * 2 ^ e)) : ℚ) *
      2 ^ lastBit (m * 2 ^ e) = m * 2 ^ e := by
  set value : ℚ := m * 2 ^ e with hvalue
  suffices h : ∃ n : Int, value / 2 ^ lastBit value = n by
    obtain ⟨n, hn⟩ := h
    have hback := div_mul_cancel₀ value (two_zpow_pos (lastBit value)).ne'
    rw [hn, roundHalfEven_intCast, ← hn, hback]
  have htwo : (2 : ℚ) ≠ 0 := by norm_num
  by_cases hle : lastBit value ≤ e
  · -- no bit is lost
    obtain ⟨k, hk⟩ := Int.eq_ofNat_of_zero_le (sub_nonneg.mpr hle)
    refine ⟨m * 2 ^ k, ?_⟩
    rw [hvalue, mul_div_assoc, ← zpow_sub₀ htwo, ← hvalue, hk]
    push_cast
    rw [zpow_natCast]
  · -- the number has been rounded up to the next power of two
    by_cases hzero : value = 0
    · exact ⟨0, by simp [hzero]⟩
    have hpos : 0 < |value| := abs_pos.mpr hzero
    have hlog : e + 53 ≤ Int.log 2 |value| := by
      rw [lastBit] at hle
      omega
    have hge : (2 : ℚ) ^ (e + 53) ≤ |value| := by
      have hge := (Int.zpow_le_iff_le_log (by omega : 1 < 2) hpos).mpr hlog
      exact_mod_cast hge
    have habs : |value| = 2 ^ (e + 53) := le_antisymm hm hge
    have hlast : lastBit value = e + 1 := by
      have hpower : Int.log 2 |value| = e + 53 := by
        rw [habs]
        exact_mod_cast Int.log_zpow (R := ℚ) (by omega : 1 < 2) (e + 53)
      rw [lastBit, hpower]
      omega
    have hquotient : (2 : ℚ) ^ (e + 53) / 2 ^ (e + 1) = 2 ^ (52 : Nat) := by
      rw [← zpow_sub₀ htwo, ← zpow_natCast]
      congr 1
      omega
    rcases abs_choice value with hsign | hsign
    · refine ⟨2 ^ 52, ?_⟩
      rw [hlast, ← hsign, habs, hquotient]
      norm_num
    · refine ⟨-2 ^ 52, ?_⟩
      rw [hlast, ← neg_neg value, ← hsign, habs, neg_div, hquotient]
      norm_num

/-- Rounding does not leave the fifty-three bits. -/
theorem abs_nearestDouble_le (x : ℚ) :
    |nearestDouble x| ≤ 2 ^ (lastBit x + 53) := by
  have hquotient : |x / 2 ^ lastBit x| ≤ ((2 ^ 53 : Int) : ℚ) := by
    have hlt := abs_lt_lastBit x
    rw [zpow_add₀ (by norm_num)] at hlt
    rw [abs_div, abs_of_pos (two_zpow_pos _), div_le_iff₀ (two_zpow_pos _)]
    push_cast
    rw [mul_comm]
    exact hlt.le
  have hround := abs_roundHalfEven_le hquotient
  rw [nearestDouble, abs_mul, abs_of_pos (two_zpow_pos _),
    zpow_add₀ (by norm_num), mul_comm]
  apply mul_le_mul_of_nonneg_left _ (two_zpow_pos _).le
  have hround : ((|roundHalfEven (x / 2 ^ lastBit x)| : Int) : ℚ) ≤
      ((2 ^ 53 : Int) : ℚ) := Int.cast_le.mpr hround
  rw [Int.cast_abs] at hround
  exact_mod_cast hround

/-- A finite number value is a double, a multiple of the least one. -/
theorem toDouble_eq_some {x value : ℚ} (h : toDouble x = some value) :
    IsDouble value ∧ ∃ n : Int, value * 2 ^ (1074 : Nat) = n := by
  simp only [toDouble] at h
  split at h
  · rename_i hfinite
    cases h
    have hlast : -1074 ≤ lastBit x := le_max_right _ _
    refine ⟨?_, ?_⟩
    · have hself : nearestDouble (nearestDouble x) = nearestDouble x :=
        roundHalfEven_mul_zpow hlast (abs_nearestDouble_le x)
      rw [IsDouble, toDouble]
      simp only [hself, if_pos hfinite]
    · obtain ⟨k, hk⟩ := Int.eq_ofNat_of_zero_le
        (by omega : 0 ≤ lastBit x + 1074)
      refine ⟨roundHalfEven (x / 2 ^ lastBit x) * 2 ^ k, ?_⟩
      rw [nearestDouble, mul_assoc, ← zpow_natCast, ← zpow_add₀ (by norm_num)]
      push_cast
      rw [hk]
      rfl
  · cases h

theorem IsDouble.neg {x : ℚ} (h : IsDouble x) : IsDouble (-x) := by
  have hlast : lastBit (-x) = lastBit x := by rw [lastBit, lastBit, abs_neg]
  simp only [IsDouble, toDouble] at h
  split at h
  · rename_i hfinite
    have hvalue := Option.some.inj h
    rw [nearestDouble] at hvalue
    have hquotient : -x / 2 ^ lastBit x =
        ((-roundHalfEven (x / 2 ^ lastBit x) : Int) : ℚ) := by
      rw [div_eq_iff (two_zpow_pos _).ne']
      push_cast
      rw [neg_mul, hvalue]
    rw [nearestDouble, hvalue] at hfinite
    rw [IsDouble, toDouble, nearestDouble, hlast, hquotient,
      roundHalfEven_intCast]
    push_cast
    rw [neg_mul, hvalue, abs_neg]
    exact if_pos hfinite
  · cases h

theorem toDouble_finite {x value : ℚ} (h : toDouble x = some value) :
    |value| < 2 ^ (1024 : Nat) := by
  simp only [toDouble] at h
  split at h
  · rename_i hfinite
    cases h
    exact hfinite
  · cases h

section Order

variable {x y : ℚ}

@[simp] theorem nearestDouble_zero : nearestDouble 0 = 0 := by
  have hround := roundHalfEven_intCast 0
  rw [Int.cast_zero] at hround
  simp [nearestDouble, hround]

theorem nearestDouble_nonneg (h : 0 ≤ x) : 0 ≤ nearestDouble x := by
  have hround := roundHalfEven_mono (div_nonneg h (two_zpow_pos (lastBit x)).le)
  rw [← Int.cast_zero, roundHalfEven_intCast] at hround
  exact mul_nonneg (Int.cast_nonneg hround) (two_zpow_pos _).le

/-- Only a positive value can be rounded to one. -/
theorem pos_of_nearestDouble_pos (h : 0 < nearestDouble x) : 0 < x := by
  by_contra hle
  have hround := roundHalfEven_mono
    (div_nonpos_of_nonpos_of_nonneg (not_lt.mp hle)
      (two_zpow_pos (lastBit x)).le)
  rw [← Int.cast_zero, roundHalfEven_intCast] at hround
  have hcast : (roundHalfEven (x / 2 ^ lastBit x) : ℚ) ≤ 0 := by
    exact_mod_cast hround
  exact absurd h (not_lt.mpr
    (mul_nonpos_of_nonpos_of_nonneg hcast (two_zpow_pos _).le))

/-- A value of normal size is not below the power of two under it. -/
theorem zpow_log_le_nearestDouble (hpos : 0 < x)
    (hnormal : lastBit x = Int.log 2 x - 52) :
    2 ^ Int.log 2 x ≤ nearestDouble x := by
  have hlog := Int.zpow_log_le_self (by omega : 1 < 2) hpos
  have hpower : (2 : ℚ) ^ Int.log 2 x = (2 ^ 52 : Int) * 2 ^ lastBit x := by
    rw [hnormal, zpow_sub₀ (by norm_num)]
    norm_num
    rw [mul_div_cancel₀ _ (by norm_num)]
  have hquotient : ((2 ^ 52 : Int) : ℚ) ≤ x / 2 ^ lastBit x := by
    rw [le_div_iff₀ (two_zpow_pos _), ← hpower]
    exact_mod_cast hlog
  have hround := roundHalfEven_mono hquotient
  rw [roundHalfEven_intCast] at hround
  rw [hpower, nearestDouble]
  exact mul_le_mul_of_nonneg_right (by exact_mod_cast hround)
    (two_zpow_pos _).le

/-- Rounding keeps the order. -/
theorem nearestDouble_mono (hx : 0 ≤ x) (h : x ≤ y) :
    nearestDouble x ≤ nearestDouble y := by
  by_cases hzero : x = 0
  · rw [hzero, nearestDouble_zero]
    exact nearestDouble_nonneg (hx.trans h)
  have hpos : 0 < x := lt_of_le_of_ne hx (Ne.symm hzero)
  have hypos : 0 < y := hpos.trans_le h
  have hlog : Int.log 2 x ≤ Int.log 2 y := Int.log_mono_right hpos h
  have hlast : lastBit x = max (Int.log 2 x - 52) (-1074) := by
    rw [lastBit, abs_of_pos hpos]
  have hlast' : lastBit y = max (Int.log 2 y - 52) (-1074) := by
    rw [lastBit, abs_of_pos hypos]
  by_cases hsame : lastBit x = lastBit y
  · rw [nearestDouble, nearestDouble, hsame]
    apply mul_le_mul_of_nonneg_right _ (two_zpow_pos _).le
    exact_mod_cast roundHalfEven_mono
      (div_le_div_of_nonneg_right h (two_zpow_pos _).le)
  · -- a power of two lies between the two values
    have hbits : (2 : ℚ) ^ (lastBit x + 53) ≤ 2 ^ Int.log 2 y :=
      zpow_le_zpow_right₀ (by norm_num) (by omega)
    calc nearestDouble x ≤ |nearestDouble x| := le_abs_self _
      _ ≤ 2 ^ (lastBit x + 53) := abs_nearestDouble_le x
      _ ≤ 2 ^ Int.log 2 y := hbits
      _ ≤ nearestDouble y := zpow_log_le_nearestDouble hypos (by omega)

/-- A value of normal size grows by one part in `2 ^ 53` at most. -/
theorem nearestDouble_le (hpos : 0 < x) (hnormal : -1022 ≤ Int.log 2 x) :
    nearestDouble x ≤ x * (1 + 1 / 2 ^ (53 : Nat)) := by
  have hlast : lastBit x = Int.log 2 x - 52 := by
    rw [lastBit, abs_of_pos hpos]
    omega
  have hlog := Int.zpow_log_le_self (by omega : 1 < 2) hpos
  have hpower : (2 : ℚ) ^ lastBit x = 2 ^ Int.log 2 x / 2 ^ (52 : Nat) := by
    rw [hlast, zpow_sub₀ (by norm_num)]
    norm_num
  have hbit : (2 : ℚ) ^ lastBit x ≤ x / 2 ^ (52 : Nat) := by
    rw [hpower]
    apply div_le_div_of_nonneg_right _ (by norm_num)
    exact_mod_cast hlog
  obtain ⟨_, habove⟩ :=
    abs_le.mp (abs_roundHalfEven_sub_le (x / 2 ^ lastBit x))
  have hround : (roundHalfEven (x / 2 ^ lastBit x) : ℚ) ≤
      x / 2 ^ lastBit x + 1 / 2 := by linarith
  have hscaled := mul_le_mul_of_nonneg_right hround (two_zpow_pos (lastBit x)).le
  rw [add_mul, div_mul_cancel₀ _ (two_zpow_pos _).ne'] at hscaled
  rw [nearestDouble]
  norm_num at hbit ⊢
  linarith

/-- An integer of at most fifty-three bits is a number value. -/
theorem nearestDouble_intCast {n : Int} (h : n.natAbs ≤ 2 ^ 53) :
    nearestDouble n = n := by
  have hbound : |((n : ℚ) * 2 ^ (0 : Int))| ≤ 2 ^ ((0 : Int) + 53) := by
    have habs : |n| ≤ 2 ^ 53 := abs_le.mpr (by omega)
    rw [zpow_zero, mul_one]
    exact_mod_cast habs
  have hself := roundHalfEven_mul_zpow (by omega) hbound
  rwa [zpow_zero, mul_one] at hself

end Order

end StatementAnalyzer
