/-
`Number::toString`: the shortest decimal that denotes a number.  Reading it
gives the number back, so no two numbers share a text.
-/
import StatementAnalyzer.Js.Double
import Mathlib.Data.List.DropRight
import Mathlib.Tactic.Ring

namespace StatementAnalyzer

/-- `significand * 10 ^ exponent`. -/
structure Decimal where
  significand : Nat
  exponent : Int
deriving DecidableEq, Repr

def Decimal.value (decimal : Decimal) : ℚ :=
  decimal.significand * 10 ^ decimal.exponent

/-- The decimals next to `x` whose last digit has this weight, the closer one
first, and of two equally close the even one. -/
def neighbours (x : ℚ) (exponent : Int) : List Decimal :=
  let quotient := ⌊x / 10 ^ exponent⌋₊
  let rest := x / 10 ^ exponent - quotient
  if 1 / 2 < rest ∨ (rest = 1 / 2 ∧ quotient % 2 = 1) then
    [⟨quotient + 1, exponent⟩, ⟨quotient, exponent⟩]
  else [⟨quotient, exponent⟩, ⟨quotient + 1, exponent⟩]

/-- The decimal with `places` digits after the first one that denotes `x`. -/
def decimalWith (x : ℚ) (places : Nat) : Option Decimal :=
  (neighbours x (Int.log 10 x - places)).find? fun decimal =>
    toDouble decimal.value = some x

/-- The one with the fewest digits.  No double has more than the bound. -/
def shortestDecimal (x : ℚ) : Decimal :=
  ((List.range 1400).findSome? (decimalWith x)).getD ⟨0, 0⟩

/-- The fraction, and the point if there is one. -/
def pointed (fraction : List Char) : List Char :=
  if fraction = [] then [] else '.' :: fraction

def exponentPart (exponent : Int) : List Char :=
  'e' :: (if exponent < 0 then '-' else '+') ::
    Nat.toDigits 10 exponent.natAbs

/-- The digits `d₁ … dₖ` of `0.d₁…dₖ * 10 ^ n`, in the form that the size of
the number asks for. -/
def layout (digits : List Char) (n : Int) : List Char :=
  if digits.length ≤ n ∧ n ≤ 21 then
    digits ++ List.replicate (n - digits.length).toNat '0'
  else if 0 < n ∧ n ≤ 21 then
    digits.take n.toNat ++ pointed (digits.drop n.toNat)
  else if -6 < n ∧ n ≤ 0 then
    '0' :: pointed (List.replicate (-n).toNat '0' ++ digits)
  else digits.take 1 ++ pointed (digits.drop 1) ++ exponentPart (n - 1)

def positiveText (x : ℚ) : List Char :=
  let decimal := shortestDecimal x
  let digits := Nat.toDigits 10 decimal.significand
  layout (digits.rdropWhile (· = '0')) (decimal.exponent + digits.length)

/-- `Number::toString` of a finite number. -/
def numberToString (x : ℚ) : List Char :=
  if x = 0 then ['0']
  else if x < 0 then '-' :: positiveText (-x)
  else positiveText x

example : numberToString 1200 = "1200".toList := by decide +kernel

example : (toDouble (-1 / 10)).map numberToString = some "-0.1".toList := by
  decide +kernel

example : (toDouble (3 / 10 ^ 7)).map numberToString = some "3e-7".toList := by
  decide +kernel

/-- The number in an exponent part. -/
def readExponent : List Char → Int
  | '-' :: digits => -(Nat.ofDigitChars 10 digits 0)
  | '+' :: digits => Nat.ofDigitChars 10 digits 0
  | _ => 0

/-- The number that an unsigned decimal literal denotes. -/
def readDecimal (text : List Char) : ℚ :=
  let mantissa := text.takeWhile (· ≠ 'e')
  let exponent := readExponent ((text.dropWhile (· ≠ 'e')).drop 1)
  let fraction := (mantissa.dropWhile (· ≠ '.')).drop 1
  Nat.ofDigitChars 10 (mantissa.takeWhile (· ≠ '.') ++ fraction) 0 *
    10 ^ (exponent - fraction.length)

/-- The number value of a literal with a sign or without. -/
def readNumber (text : List Char) : Option ℚ :=
  if text.head? = some '-' then
    (toDouble (readDecimal text.tail)).map fun value => -value
  else toDouble (readDecimal text)

section Layout

/-- A list of decimal digits. -/
def AllDigits (digits : List Char) : Prop :=
  ∀ c ∈ digits, c.isDigit = true

variable {digits integer fraction : List Char}

theorem allDigits_toDigits (n : Nat) : AllDigits (Nat.toDigits 10 n) :=
  fun _ hc => Nat.isDigit_of_mem_toDigits (by omega) (by omega) hc

theorem allDigits_replicate (n : Nat) : AllDigits (List.replicate n '0') := by
  intro c hc
  rw [List.eq_of_mem_replicate hc]
  rfl

theorem allDigits_nil : AllDigits [] :=
  fun _ hc => absurd hc List.not_mem_nil

theorem AllDigits.append (h : AllDigits integer) (h' : AllDigits fraction) :
    AllDigits (integer ++ fraction) :=
  List.forall_mem_append.mpr ⟨h, h'⟩

theorem AllDigits.take (h : AllDigits digits) (n : Nat) :
    AllDigits (digits.take n) :=
  fun c hc => h c (List.mem_of_mem_take hc)

theorem AllDigits.drop (h : AllDigits digits) (n : Nat) :
    AllDigits (digits.drop n) :=
  fun c hc => h c (List.mem_of_mem_drop hc)

theorem ne_of_isDigit {c mark : Char} (h : c.isDigit = true)
    (hmark : mark.isDigit = false) : c ≠ mark := by
  rintro rfl
  rw [h] at hmark
  cases hmark

/-- Up to a mark that is no digit, the digits are read. -/
theorem takeWhile_digits (mark : Char) (h : AllDigits digits)
    (hmark : mark.isDigit = false) (rest : List Char) :
    (digits ++ rest).takeWhile (· ≠ mark) =
        digits ++ rest.takeWhile (· ≠ mark) ∧
      (digits ++ rest).dropWhile (· ≠ mark) = rest.dropWhile (· ≠ mark) := by
  have hpass : ∀ c ∈ digits, decide (c ≠ mark) = true :=
    fun c hc => decide_eq_true (ne_of_isDigit (h c hc) hmark)
  exact ⟨List.takeWhile_append_of_pos hpass, List.dropWhile_append_of_pos hpass⟩

theorem takeWhile_pointed (h : AllDigits fraction) (rest : List Char) :
    (pointed fraction ++ rest).takeWhile (· ≠ 'e') =
        pointed fraction ++ rest.takeWhile (· ≠ 'e') ∧
      (pointed fraction ++ rest).dropWhile (· ≠ 'e') =
        rest.dropWhile (· ≠ 'e') := by
  rw [pointed]
  split
  · exact ⟨rfl, rfl⟩
  · obtain ⟨htake, hdrop⟩ := takeWhile_digits 'e' h (by decide) rest
    exact ⟨congrArg (List.cons '.') htake, hdrop⟩

theorem takeWhile_point (h : AllDigits integer) (fraction : List Char) :
    (integer ++ pointed fraction).takeWhile (· ≠ '.') = integer ∧
      ((integer ++ pointed fraction).dropWhile (· ≠ '.')).drop 1 = fraction := by
  obtain ⟨htake, hdrop⟩ :=
    takeWhile_digits '.' h (by decide) (pointed fraction)
  rw [htake, hdrop, pointed]
  split
  · rename_i hnil
    rw [hnil]
    exact ⟨List.append_nil _, rfl⟩
  · exact ⟨List.append_nil _, rfl⟩

/-- What the pieces of a literal denote together. -/
theorem readDecimal_pieces (hinteger : AllDigits integer)
    (hfraction : AllDigits fraction) (part : List Char)
    (hpart : part.takeWhile (· ≠ 'e') = []) {exponent : Int}
    (hexponent : readExponent (part.drop 1) - fraction.length = exponent) :
    readDecimal (integer ++ (pointed fraction ++ part)) =
      Nat.ofDigitChars 10 (integer ++ fraction) 0 * 10 ^ exponent := by
  have hdrop : part.dropWhile (· ≠ 'e') = part := by
    have hsplit := List.takeWhile_append_dropWhile (p := (· ≠ 'e')) (l := part)
    rw [hpart] at hsplit
    exact hsplit
  obtain ⟨htake₁, hdrop₁⟩ := takeWhile_digits 'e' hinteger (by decide)
    (pointed fraction ++ part)
  obtain ⟨htake₂, hdrop₂⟩ := takeWhile_pointed hfraction part
  obtain ⟨htake₃, hdrop₃⟩ := takeWhile_point hinteger fraction
  simp only [readDecimal, htake₁, hdrop₁, htake₂, hdrop₂, hpart, hdrop,
    List.append_nil, htake₃, hdrop₃, hexponent]

theorem readExponent_nil : readExponent [] = 0 := rfl

theorem readExponent_exponentPart (exponent : Int) :
    readExponent ((exponentPart exponent).drop 1) = exponent := by
  rw [exponentPart, List.drop_one, List.tail_cons]
  by_cases hneg : exponent < 0
  · rw [if_pos hneg, readExponent, Nat.ofDigitChars_ten_toDigits]
    omega
  · rw [if_neg hneg, readExponent, Nat.ofDigitChars_ten_toDigits]
    omega

/-- Every form denotes the digits at their place. -/
theorem readDecimal_layout (hdigits : AllDigits digits) (hne : digits ≠ [])
    (n : Int) : readDecimal (layout digits n) =
      Nat.ofDigitChars 10 digits 0 * 10 ^ (n - digits.length) := by
  have hlength : 0 < digits.length := List.length_pos_iff.mpr hne
  rw [layout]
  split
  · obtain ⟨zeros, hzeros⟩ := Int.eq_ofNat_of_zero_le
      (by omega : 0 ≤ n - digits.length)
    have hplaces : readExponent [] - (([] : List Char).length : Int) = 0 := rfl
    have hread := readDecimal_pieces
      (hdigits.append (allDigits_replicate zeros)) allDigits_nil [] rfl hplaces
    rw [Nat.ofDigitChars_append, Nat.ofDigitChars_append,
      Nat.ofDigitChars_replicate_zero, Nat.ofDigitChars_nil] at hread
    rw [hzeros, Int.toNat_natCast, zpow_natCast]
    push_cast at hread
    rw [mul_one, mul_comm] at hread
    rw [← hread]
    simp [pointed]
  · split
    · have hplaces : readExponent [] - ((digits.drop n.toNat).length : Int) =
          n - digits.length := by
        rw [readExponent_nil, List.length_drop]
        omega
      have hread := readDecimal_pieces (hdigits.take n.toNat)
        (hdigits.drop n.toNat) [] rfl hplaces
      rw [List.append_nil, List.take_append_drop] at hread
      exact hread
    · split
      · have hplaces : readExponent [] -
            ((List.replicate (-n).toNat '0' ++ digits).length : Int) =
            n - digits.length := by
          rw [readExponent_nil, List.length_append, List.length_replicate]
          omega
        have hread := readDecimal_pieces (allDigits_replicate 1)
          ((allDigits_replicate (-n).toNat).append hdigits) [] rfl hplaces
        have hzeros : Nat.ofDigitChars 10 (List.replicate 1 '0' ++
            (List.replicate (-n).toNat '0' ++ digits)) 0 =
            Nat.ofDigitChars 10 digits 0 := by
          rw [Nat.ofDigitChars_append, Nat.ofDigitChars_append,
            Nat.ofDigitChars_replicate_zero, Nat.ofDigitChars_replicate_zero,
            Nat.mul_zero]
        rw [List.append_nil, hzeros] at hread
        exact hread
      · have hplaces : readExponent ((exponentPart (n - 1)).drop 1) -
            ((digits.drop 1).length : Int) = n - digits.length := by
          rw [readExponent_exponentPart, List.length_drop]
          omega
        have hread := readDecimal_pieces (hdigits.take 1) (hdigits.drop 1)
          (exponentPart (n - 1)) rfl hplaces
        rw [List.take_append_drop] at hread
        rw [List.append_assoc]
        exact hread

/-- The characters of a number. -/
def isNumberChar (c : Char) : Bool :=
  c.isDigit || c = '.' || c = 'e' || c = '+' || c = '-'

theorem AllDigits.number (h : AllDigits digits) :
    ∀ c ∈ digits, isNumberChar c = true := by
  intro c hc
  simp [isNumberChar, h c hc]

theorem isNumberChar_of_mem_pointed (h : AllDigits fraction) :
    ∀ c ∈ pointed fraction, isNumberChar c = true := by
  rw [pointed]
  split
  · simp
  · exact List.forall_mem_cons.mpr ⟨by decide, h.number⟩

theorem isNumberChar_of_mem_exponentPart (exponent : Int) :
    ∀ c ∈ exponentPart exponent, isNumberChar c = true := by
  have hdigits := (allDigits_toDigits exponent.natAbs).number
  refine List.forall_mem_cons.mpr
    ⟨by decide, List.forall_mem_cons.mpr ⟨?_, hdigits⟩⟩
  split <;> decide

theorem isNumberChar_of_mem_layout (hdigits : AllDigits digits) (n : Int) :
    ∀ c ∈ layout digits n, isNumberChar c = true := by
  rw [layout]
  split
  · exact (hdigits.append (allDigits_replicate _)).number
  · split
    · exact List.forall_mem_append.mpr ⟨(hdigits.take _).number,
        isNumberChar_of_mem_pointed (hdigits.drop _)⟩
    · split
      · exact List.forall_mem_cons.mpr ⟨by decide, isNumberChar_of_mem_pointed
          ((allDigits_replicate _).append hdigits)⟩
      · exact List.forall_mem_append.mpr
          ⟨List.forall_mem_append.mpr ⟨(hdigits.take _).number,
            isNumberChar_of_mem_pointed (hdigits.drop _)⟩,
            isNumberChar_of_mem_exponentPart _⟩

/-- Every form begins with a digit. -/
theorem layout_head (hdigits : AllDigits digits) (hne : digits ≠ [])
    (n : Int) : ∃ c rest, layout digits n = c :: rest ∧ c.isDigit = true := by
  obtain ⟨first, others, rfl⟩ := List.exists_cons_of_ne_nil hne
  have hfirst : first.isDigit = true := hdigits first (by simp)
  rw [layout]
  split
  · exact ⟨first, _, rfl, hfirst⟩
  · split
    · rename_i hn
      obtain ⟨k, hk⟩ := Nat.exists_eq_succ_of_ne_zero
        (by omega : n.toNat ≠ 0)
      rw [hk]
      exact ⟨first, _, rfl, hfirst⟩
    · split
      · exact ⟨'0', _, rfl, rfl⟩
      · exact ⟨first, _, rfl, hfirst⟩

end Layout

section Shortest

variable {x : ℚ}

/-- A number with so many places is found as it is. -/
theorem decimalWith_isSome {places n : Nat} (hx : IsDouble x)
    (h : x / 10 ^ (Int.log 10 x - places : Int) = n) :
    (decimalWith x places).isSome = true := by
  have hten : (10 : ℚ) ^ (Int.log 10 x - places : Int) ≠ 0 :=
    zpow_ne_zero _ (by norm_num)
  have hvalue : (⟨n, Int.log 10 x - places⟩ : Decimal).value = x := by
    rw [Decimal.value, ← h, div_mul_cancel₀ _ hten]
  have hdouble : toDouble (⟨n, Int.log 10 x - places⟩ : Decimal).value =
      some x := by
    rw [hvalue]
    exact hx
  rw [decimalWith, List.find?_isSome]
  refine ⟨⟨n, Int.log 10 x - places⟩, ?_, decide_eq_true hdouble⟩
  simp only [neighbours, h, Nat.floor_natCast]
  split <;> simp

theorem decimalWith_value {places : Nat} {decimal : Decimal}
    (h : decimalWith x places = some decimal) :
    toDouble decimal.value = some x := by
  have hfound := List.find?_some h
  exact of_decide_eq_true hfound

/-- Every double has a decimal, as far from the point as the least double. -/
theorem exists_decimalWith (hx : IsDouble x) (hpos : 0 < x) :
    ∃ places < 1400, (decimalWith x places).isSome = true := by
  obtain ⟨-, n, hn⟩ := toDouble_eq_some hx
  have hfinite := toDouble_finite hx
  rw [abs_of_pos hpos] at hfinite
  have hone : 1 ≤ n := by
    have hlt : (0 : ℚ) < n := by
      rw [← hn]
      exact mul_pos hpos (by positivity)
    have hlt : 0 < n := by exact_mod_cast hlt
    omega
  have hlow : -1074 ≤ Int.log 10 x := by
    apply (Int.zpow_le_iff_le_log (by omega : 1 < 10) hpos).mp
    have hle : (1 : ℚ) ≤ x * 2 ^ (1074 : Nat) := by
      rw [hn]
      exact_mod_cast hone
    rw [zpow_neg]
    apply inv_le_of_inv_le₀ hpos
    calc x⁻¹ ≤ 2 ^ (1074 : Nat) := by
          rw [inv_le_iff_one_le_mul₀' hpos]
          exact hle
      _ ≤ ((10 : Nat) : ℚ) ^ (1074 : Int) := by
          rw [zpow_ofNat]
          exact pow_le_pow_left₀ (by norm_num) (by norm_num) _
  have hhigh : Int.log 10 x < 326 := by
    apply (Int.lt_zpow_iff_log_lt (by omega : 1 < 10) hpos).mp
    rw [zpow_ofNat, Nat.cast_ofNat]
    calc x < 2 ^ (1024 : Nat) := hfinite
      _ = (2 ^ (64 : Nat)) ^ (16 : Nat) := by rw [← pow_mul]
      _ ≤ (10 ^ (20 : Nat)) ^ (16 : Nat) :=
          pow_le_pow_left₀ (by norm_num) (by norm_num) _
      _ = 10 ^ (320 : Nat) := by rw [← pow_mul]
      _ ≤ 10 ^ (326 : Nat) := pow_le_pow_right₀ (by norm_num) (by norm_num)
  obtain ⟨places, hplaces⟩ := Int.eq_ofNat_of_zero_le
    (by omega : 0 ≤ Int.log 10 x + 1074)
  refine ⟨places, by omega, decimalWith_isSome (n := n.toNat * 5 ^ 1074) hx ?_⟩
  have hexponent : Int.log 10 x - places = -1074 := by omega
  have hnat : ((n.toNat : Int) : ℚ) = n := by
    rw [Int.toNat_of_nonneg (by omega)]
  rw [← hn, Int.cast_natCast] at hnat
  rw [hexponent, zpow_neg, div_inv_eq_mul, Nat.cast_mul, Nat.cast_pow,
    Nat.cast_ofNat, hnat, mul_assoc, ← mul_pow, zpow_ofNat]
  congr 2
  norm_num

/-- The shortest decimal denotes the number. -/
theorem shortestDecimal_value (hx : IsDouble x) (hpos : 0 < x) :
    toDouble (shortestDecimal x).value = some x := by
  obtain ⟨places, hlt, hsome⟩ := exists_decimalWith hx hpos
  have hfound : ((List.range 1400).findSome? (decimalWith x)).isSome = true :=
    List.findSome?_isSome_iff.mpr ⟨places, List.mem_range.mpr hlt, hsome⟩
  obtain ⟨decimal, hdecimal⟩ := Option.isSome_iff_exists.mp hfound
  obtain ⟨found, -, hvalue⟩ := List.exists_of_findSome?_eq_some hdecimal
  rw [shortestDecimal, hdecimal]
  exact decimalWith_value hvalue

end Shortest

section Text

variable {x y : ℚ}

/-- The digits that are written, and the zeros that are not. -/
theorem rdropWhile_toDigits (n : Nat) : ∃ zeros, Nat.toDigits 10 n =
    (Nat.toDigits 10 n).rdropWhile (· = '0') ++ List.replicate zeros '0' := by
  refine ⟨((Nat.toDigits 10 n).rtakeWhile (· = '0')).length, ?_⟩
  have hzeros : (Nat.toDigits 10 n).rtakeWhile (· = '0') = List.replicate
      ((Nat.toDigits 10 n).rtakeWhile (· = '0')).length '0' := by
    rw [List.eq_replicate_iff]
    refine ⟨rfl, fun c hc => ?_⟩
    have hzero := List.mem_rtakeWhile_imp hc
    exact of_decide_eq_true hzero
  rw [← hzeros, List.rdropWhile_append_rtakeWhile]

theorem rdropWhile_toDigits_ne_nil {n : Nat} (h : n ≠ 0) :
    (Nat.toDigits 10 n).rdropWhile (· = '0') ≠ [] := by
  intro hnil
  obtain ⟨zeros, hdigits⟩ := rdropWhile_toDigits n
  have hvalue : Nat.ofDigitChars 10 (Nat.toDigits 10 n) 0 = n :=
    Nat.ofDigitChars_ten_toDigits
  rw [hdigits, hnil, List.nil_append, Nat.ofDigitChars_replicate_zero] at hvalue
  exact h hvalue.symm

theorem allDigits_rdropWhile (n : Nat) :
    AllDigits ((Nat.toDigits 10 n).rdropWhile (· = '0')) :=
  fun c hc => allDigits_toDigits n c
    ((List.rdropWhile_prefix _ _).subset hc)

theorem significand_ne_zero (hx : IsDouble x) (hpos : 0 < x) :
    (shortestDecimal x).significand ≠ 0 := by
  intro hzero
  have hvalue := shortestDecimal_value hx hpos
  have htoDouble : toDouble 0 = some 0 := by decide +kernel
  rw [Decimal.value, hzero, Nat.cast_zero, zero_mul, htoDouble] at hvalue
  cases hvalue
  exact absurd hpos (lt_irrefl 0)

/-- The text denotes the decimal that it is made from. -/
theorem readDecimal_positiveText (hx : IsDouble x) (hpos : 0 < x) :
    readDecimal (positiveText x) = (shortestDecimal x).value := by
  have hne := significand_ne_zero hx hpos
  obtain ⟨zeros, hdigits⟩ := rdropWhile_toDigits (shortestDecimal x).significand
  have hlength := congrArg List.length hdigits
  rw [List.length_append, List.length_replicate] at hlength
  have hvalue := congrArg (Nat.ofDigitChars 10 · 0) hdigits
  simp only [Nat.ofDigitChars_append, Nat.ofDigitChars_ten_toDigits,
    Nat.ofDigitChars_replicate_zero] at hvalue
  rw [positiveText, readDecimal_layout (allDigits_rdropWhile _)
    (rdropWhile_toDigits_ne_nil hne), Decimal.value]
  generalize (Nat.toDigits 10 (shortestDecimal x).significand).rdropWhile
    (· = '0') = digits at hvalue hlength ⊢
  have hexponent : (shortestDecimal x).exponent +
      ((Nat.toDigits 10 (shortestDecimal x).significand).length : Int) -
      digits.length = zeros + (shortestDecimal x).exponent := by
    omega
  rw [hexponent, zpow_add₀ (by norm_num), zpow_natCast, hvalue]
  push_cast
  ring

theorem positiveText_head (hx : IsDouble x) (hpos : 0 < x) :
    ∃ c rest, positiveText x = c :: rest ∧ c.isDigit = true :=
  layout_head (allDigits_rdropWhile _)
    (rdropWhile_toDigits_ne_nil (significand_ne_zero hx hpos)) _

theorem readNumber_positiveText (hx : IsDouble x) (hpos : 0 < x) :
    readNumber (positiveText x) = some x := by
  obtain ⟨c, rest, htext, hdigit⟩ := positiveText_head hx hpos
  have hvalue := shortestDecimal_value hx hpos
  rw [← readDecimal_positiveText hx hpos] at hvalue
  have hunsigned : (positiveText x).head? ≠ some '-' := by
    rw [htext]
    exact fun hminus =>
      ne_of_isDigit hdigit (by decide) (Option.some.inj hminus)
  rw [readNumber, if_neg hunsigned]
  exact hvalue

/-- Reading the text of a number gives the number. -/
theorem readNumber_numberToString (hx : IsDouble x) :
    readNumber (numberToString x) = some x := by
  rw [numberToString]
  split
  · rename_i hzero
    rw [hzero]
    decide +kernel
  · split
    · rename_i hneg
      have hpos : 0 < -x := neg_pos.mpr hneg
      have hvalue := shortestDecimal_value hx.neg hpos
      rw [← readDecimal_positiveText hx.neg hpos] at hvalue
      rw [readNumber, if_pos List.head?_cons, List.tail_cons, hvalue,
        Option.map_some, neg_neg]
    · rename_i hzero hneg
      exact readNumber_positiveText hx
        (lt_of_le_of_ne (not_lt.mp hneg) (Ne.symm hzero))

/-- A number is determined by its text. -/
theorem numberToString_injective (hx : IsDouble x) (hy : IsDouble y)
    (h : numberToString x = numberToString y) : x = y := by
  have hread := readNumber_numberToString hx
  rw [h, readNumber_numberToString hy] at hread
  exact (Option.some.inj hread).symm

theorem isNumberChar_of_mem_numberToString (x : ℚ) :
    ∀ c ∈ numberToString x, isNumberChar c = true := by
  have hpositive : ∀ x, ∀ c ∈ positiveText x, isNumberChar c = true :=
    fun x => isNumberChar_of_mem_layout (allDigits_rdropWhile _) _
  rw [numberToString]
  split
  · exact List.forall_mem_singleton.mpr (by decide)
  · split
    · exact List.forall_mem_cons.mpr ⟨by decide, hpositive (-x)⟩
    · exact hpositive x

theorem numberToString_ne_nil (hx : IsDouble x) : numberToString x ≠ [] := by
  rw [numberToString]
  split
  · simp
  · split
    · simp
    · rename_i hzero hneg
      obtain ⟨c, rest, htext, -⟩ := positiveText_head hx
        (lt_of_le_of_ne (not_lt.mp hneg) (Ne.symm hzero))
      rw [htext]
      simp

end Text

end StatementAnalyzer
