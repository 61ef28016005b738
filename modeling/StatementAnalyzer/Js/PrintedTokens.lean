/-
The strings and the numbers that `JSON.stringify` writes are scanned as what
they were written from.
-/
import StatementAnalyzer.Js.JsonTokens

namespace StatementAnalyzer

section Strings

theorem hexCharValue?_digitChar {n : Nat} (h : n < 16) :
    hexCharValue? n.digitChar = some n := by
  have hall : ∀ n < 16, hexCharValue? (Nat.digitChar n) = some n := by decide
  exact hall n h

/-- The digits of a unit are read back. -/
theorem scanString_unicodeEscape {n : Nat} (h : n < 65536) (rest : List Char) :
    scanString .plain (unicodeEscape n ++ rest) =
      readUnits [UInt16.ofNat n] (scanString .plain rest) := by
  have hcode : 16 * (16 * (16 * (16 * 0 + n / 4096 % 16) + n / 256 % 16) +
      n / 16 % 16) + n % 16 = n := by omega
  have hdigit : ∀ k, hexCharValue? (Nat.digitChar (k % 16)) = some (k % 16) :=
    fun k => hexCharValue?_digitChar (Nat.mod_lt k (by decide))
  have hmarks : '\\' ≠ '"' := by decide
  simp only [unicodeEscape, List.cons_append, List.nil_append, scanString,
    hdigit, hcode, if_true, if_neg hmarks, Nat.zero_add, reduceCtorEq]
  rfl

theorem escapedChar?_shortEscape {c mark : Char}
    (h : shortEscape c.toNat = some mark) : escapedChar? mark = some c := by
  have hall : ∀ entry ∈ shortEscapes,
      escapedChar? entry.2 = some (Char.ofNat entry.1) := by decide
  obtain ⟨entry, hentry, rfl⟩ := Option.map_eq_some_iff.mp h
  have hcode := List.find?_some hentry
  rw [decide_eq_true_eq] at hcode
  rw [← Char.ofNat_toNat c, ← hcode]
  exact hall entry (List.mem_of_find?_eq_some hentry)

/-- The text of a code point is read as its units. -/
theorem scanString_escape (point : CodePoint) (rest : List Char) :
    scanString .plain (escape point ++ rest) =
      readUnits point.units (scanString .plain rest) := by
  cases point with
  | surrogate unit h =>
      rw [escape, scanString_unicodeEscape unit.toNat_lt, CodePoint.units,
        UInt16.ofNat_toNat]
  | scalar c =>
      rw [escape, CodePoint.units]
      split
      · rename_i mark hmark
        obtain ⟨-, hu, -⟩ := shortEscape_eq_some hmark
        simp [scanString, hu, escapedChar?_shortEscape hmark]
      · rename_i hnone
        obtain ⟨hquotation, hbackslash⟩ := shortEscape_eq_none hnone
        split
        · rename_i hcontrol
          have hunit : utf16 c = [UInt16.ofNat c.toNat] := if_pos (by omega)
          rw [hunit, scanString_unicodeEscape (by omega)]
        · rename_i hprintable
          simp [scanString, hquotation, hbackslash, hprintable]

theorem scanString_escapes (points : List CodePoint) (rest : List Char) :
    scanString .plain (points.flatMap escape ++ '"' :: rest) =
      some (points.flatMap CodePoint.units, rest) := by
  induction points with
  | nil => rfl
  | cons point others ih =>
      rw [List.flatMap_cons, List.append_assoc, scanString_escape, ih]
      rfl

/-- A string is read back from its text. -/
theorem scanToken_quote (text : JsString) (rest : List Char) :
    scanToken (quote text ++ rest) = some (.string text, rest) := by
  have hscan := scanString_escapes (codePoints text) rest
  rw [flatMap_units_codePoints] at hscan
  have hkind : JsValue.kindOf '"' = .string := by decide
  simp only [quote, List.cons_append, List.append_assoc, List.nil_append,
    scanToken, hkind, hscan]
  rfl

end Strings

section Numbers

variable {digits integer fraction part rest : List Char}

/-- What follows goes on with none of the digits. -/
def EndsDigits (rest : List Char) : Prop :=
  ∀ c others, rest = c :: others → c.isDigit = false

/-- What follows belongs to no number. -/
def EndsNumber (rest : List Char) : Prop :=
  ∀ c others, rest = c :: others → isNumberChar c = false ∧ c ≠ 'E'

/-- One zero, or digits that begin with another one. -/
def IsInteger (integer : List Char) : Prop :=
  integer = ['0'] ∨
    ∃ c others, integer = c :: others ∧ c ≠ '0' ∧ AllDigits integer

def IsExponentPart (part : List Char) : Prop :=
  part = [] ∨ ∃ exponent, part = exponentPart exponent

theorem EndsNumber.head {c : Char} {others : List Char}
    (h : EndsNumber (c :: others)) :
    c.isDigit = false ∧ c ≠ '.' ∧ c ≠ 'e' ∧ c ≠ 'E' := by
  obtain ⟨hnumber, hbig⟩ := h c others rfl
  simp only [isNumberChar, Bool.or_eq_false_iff, decide_eq_false_iff_not]
    at hnumber
  exact ⟨hnumber.1.1.1.1, hnumber.1.1.1.2, hnumber.1.1.2, hbig⟩

theorem EndsNumber.endsDigits (h : EndsNumber rest) : EndsDigits rest := by
  rintro c others rfl
  exact h.head.1

theorem scanDigits_append (hdigits : AllDigits digits) (hne : digits ≠ [])
    (hrest : EndsDigits rest) :
    scanDigits (digits ++ rest) = some (digits, rest) := by
  have hends : rest.takeWhile Char.isDigit = [] ∧
      rest.dropWhile Char.isDigit = rest := by
    cases rest with
    | nil => exact ⟨rfl, rfl⟩
    | cons c others => simp [hrest c others rfl]
  rw [scanDigits, List.takeWhile_append_of_pos hdigits,
    List.dropWhile_append_of_pos hdigits, hends.1, hends.2, List.append_nil]
  simp [hne]

theorem scanInteger_append (hinteger : IsInteger integer)
    (hrest : EndsDigits rest) :
    scanInteger (integer ++ rest) = some (integer, rest) := by
  rcases hinteger with rfl | ⟨c, others, rfl, hzero, hdigits⟩
  · rfl
  · have hscan := scanDigits_append hdigits (List.cons_ne_nil c others) hrest
    rw [List.cons_append] at hscan ⊢
    rw [scanInteger, if_neg hzero, hscan]

/-- A point is only written in front of digits. -/
theorem scanFraction_append (hfraction : AllDigits fraction)
    (hrest : EndsDigits rest)
    (hpoint : ∀ c others, rest = c :: others → c ≠ '.') :
    scanFraction (pointed fraction ++ rest) = some (fraction, rest) := by
  rw [pointed]
  split
  · rename_i hnil
    subst hnil
    cases rest with
    | nil => rfl
    | cons c others =>
        rw [List.nil_append, scanFraction, if_neg (hpoint c others rfl)]
  · rename_i hne
    rw [List.cons_append, scanFraction, if_pos rfl]
    exact scanDigits_append hfraction hne hrest

theorem scanExponent_append (hpart : IsExponentPart part)
    (hrest : EndsNumber rest) : scanExponent (part ++ rest) =
      some (readExponent (part.drop 1), rest) := by
  rcases hpart with rfl | ⟨exponent, rfl⟩
  · cases rest with
    | nil => rfl
    | cons c others =>
        obtain ⟨-, -, hsmall, hbig⟩ := hrest.head
        rw [List.nil_append, scanExponent, if_neg (by simp [hsmall, hbig])]
        rfl
  · have hscan := scanDigits_append (allDigits_toDigits exponent.natAbs)
      Nat.toDigits_ne_nil hrest.endsDigits
    have hplus : '+' ≠ '-' := by decide
    rw [readExponent_exponentPart, exponentPart, List.cons_append,
      List.cons_append, scanExponent, if_pos (Or.inl rfl), scanSigned]
    by_cases hneg : exponent < 0
    · have habs : -(exponent.natAbs : Int) = exponent := by omega
      rw [if_pos hneg, if_pos rfl, hscan]
      simp only [Option.map_some, Prod.map_apply, id_eq,
        Nat.ofDigitChars_ten_toDigits, habs]
    · have habs : (exponent.natAbs : Int) = exponent := by omega
      rw [if_neg hneg, if_neg hplus, if_pos rfl, hscan]
      simp only [Option.map_some, Prod.map_apply, id_eq,
        Nat.ofDigitChars_ten_toDigits, habs]

/-- The parts of a literal without a sign. -/
structure IsLiteral (text integer fraction part : List Char) : Prop where
  text : text = integer ++ (pointed fraction ++ part)
  integer : IsInteger integer
  fraction : AllDigits fraction
  part : IsExponentPart part

theorem IsInteger.allDigits (h : IsInteger integer) : AllDigits integer := by
  rcases h with rfl | ⟨c, others, -, -, hdigits⟩
  · exact allDigits_replicate 1
  · exact hdigits

theorem IsExponentPart.head (h : IsExponentPart part) :
    part = [] ∨ ∃ others, part = 'e' :: others := by
  rcases h with rfl | ⟨exponent, rfl⟩
  · exact .inl rfl
  · exact .inr ⟨_, rfl⟩

theorem IsLiteral.head {text : List Char}
    (h : IsLiteral text integer fraction part) :
    ∃ c others, text = c :: others ∧ c.isDigit = true := by
  obtain ⟨c, others, hinteger⟩ : ∃ c others, integer = c :: others := by
    rcases h.integer with rfl | ⟨c, others, rfl, -⟩
    · exact ⟨'0', [], rfl⟩
    · exact ⟨c, others, rfl⟩
  have hdigits := h.integer.allDigits
  rw [hinteger] at hdigits
  have htext := h.text
  rw [hinteger, List.cons_append] at htext
  exact ⟨c, _, htext, hdigits c List.mem_cons_self⟩

/-- A literal is scanned as the number that it denotes. -/
theorem IsLiteral.scanUnsigned {text : List Char}
    (h : IsLiteral text integer fraction part) (hrest : EndsNumber rest) :
    scanUnsigned (text ++ rest) = some (readDecimal text, rest) := by
  have hends : ∀ c others, part ++ rest = c :: others →
      c.isDigit = false ∧ c ≠ '.' := by
    intro c others heq
    rcases h.part.head with hnil | ⟨digits, hpart⟩
    · rw [hnil, List.nil_append] at heq
      subst heq
      exact ⟨hrest.head.1, hrest.head.2.1⟩
    · rw [hpart, List.cons_append] at heq
      cases heq
      decide
  have hpointed : EndsDigits (pointed fraction ++ (part ++ rest)) := by
    intro c others heq
    rw [pointed] at heq
    split at heq
    · exact (hends c others heq).1
    · cases heq
      decide
  have hdropped : part.takeWhile (· ≠ 'e') = [] := by
    rcases h.part.head with rfl | ⟨digits, rfl⟩ <;> rfl
  have hread := readDecimal_pieces h.integer.allDigits h.fraction part hdropped
    rfl
  have hinteger := scanInteger_append h.integer hpointed
  have hfraction := scanFraction_append h.fraction
    (fun c others heq => (hends c others heq).1)
    (fun c others heq => (hends c others heq).2)
  rw [h.text, hread, List.append_assoc, List.append_assoc,
    StatementAnalyzer.scanUnsigned, hinteger]
  simp [hfraction, scanExponent_append h.part hrest]

/-- Every form of the digits is a literal. -/
theorem isLiteral_layout {c : Char} {others : List Char} (hzero : c ≠ '0')
    (hdigits : AllDigits (c :: others)) (n : Int) :
    ∃ integer fraction part,
      IsLiteral (layout (c :: others) n) integer fraction part := by
  rw [layout]
  split
  · exact ⟨_, [], [], (List.append_nil _).symm,
      .inr ⟨c, _, rfl, hzero, hdigits.append (allDigits_replicate _)⟩,
      allDigits_nil, .inl rfl⟩
  · split
    · rename_i hn
      obtain ⟨k, hk⟩ := Nat.exists_eq_succ_of_ne_zero
        (by omega : n.toNat ≠ 0)
      refine ⟨(c :: others).take n.toNat, _, [], by rw [List.append_nil], ?_,
        hdigits.drop _, .inl rfl⟩
      rw [hk]
      exact .inr ⟨c, _, rfl, hzero, hdigits.take _⟩
    · split
      · exact ⟨['0'], List.replicate (-n).toNat '0' ++ (c :: others), [],
          by rw [List.append_nil]; rfl, .inl rfl,
          (allDigits_replicate _).append hdigits, .inl rfl⟩
      · exact ⟨_, _, _, List.append_assoc .., .inr ⟨c, _, rfl, hzero,
          hdigits.take 1⟩, hdigits.drop 1, .inr ⟨_, rfl⟩⟩

/-- Only zero is written with a zero in front. -/
theorem toDigits_head {n : Nat} (h : n ≠ 0) :
    ∃ c others, Nat.toDigits 10 n = c :: others ∧ c ≠ '0' := by
  induction n using Nat.strongRecOn with
  | ind n ih =>
      by_cases hlt : n < 10
      · have hall : ∀ n < 10, n ≠ 0 → Nat.digitChar n ≠ '0' := by decide
        exact ⟨_, [], Nat.toDigits_of_lt_base hlt, hall n hlt h⟩
      · obtain ⟨c, others, hdigits, hzero⟩ :=
          ih (n / 10) (by omega) (by omega)
        rw [Nat.toDigits_of_base_le (by omega) (by omega), hdigits]
        exact ⟨c, _, rfl, hzero⟩

variable {x : ℚ}

theorem isLiteral_positiveText (hx : IsDouble x) (hpos : 0 < x) :
    ∃ integer fraction part,
      IsLiteral (positiveText x) integer fraction part := by
  have hne := significand_ne_zero hx hpos
  obtain ⟨c, others, hdigits, hzero⟩ := toDigits_head hne
  obtain ⟨zeros, hsplit⟩ := rdropWhile_toDigits (shortestDecimal x).significand
  obtain ⟨c', others', hkept⟩ :=
    List.exists_cons_of_ne_nil (rdropWhile_toDigits_ne_nil hne)
  have hall := allDigits_rdropWhile (shortestDecimal x).significand
  rw [hkept, hdigits] at hsplit
  obtain ⟨rfl, -⟩ := List.cons.inj hsplit
  rw [hkept] at hall
  rw [positiveText, hkept]
  exact isLiteral_layout hzero hall _

theorem numberValue_eq {negative : Bool} {magnitude value : ℚ}
    (h : toDouble magnitude = some value) : numberValue negative magnitude =
      .number (if negative then -value else value) := by
  rw [numberValue, h]

/-- A number is read back from its text, whatever follows it. -/
theorem scanNumber_numberToString (hx : IsDouble x) (hrest : EndsNumber rest) :
    scanNumber (numberToString x ++ rest) = some (.number x, rest) := by
  have hread := readNumber_numberToString hx
  by_cases hneg : x < 0
  · have hpos : 0 < -x := neg_pos.mpr hneg
    obtain ⟨_, _, _, hliteral⟩ := isLiteral_positiveText hx.neg hpos
    rw [numberToString, if_neg hneg.ne, if_pos hneg] at hread ⊢
    rw [readNumber, if_pos List.head?_cons, List.tail_cons] at hread
    obtain ⟨value, hvalue, hneg⟩ := Option.map_eq_some_iff.mp hread
    rw [List.cons_append, scanNumber, if_pos rfl, hliteral.scanUnsigned hrest,
      Option.map_some, Prod.map_apply, numberValue_eq hvalue, if_pos rfl, hneg]
    rfl
  · obtain ⟨integer, fraction, part, hliteral⟩ : ∃ integer fraction part,
        IsLiteral (numberToString x) integer fraction part := by
      by_cases hzero : x = 0
      · rw [numberToString, if_pos hzero]
        exact ⟨['0'], [], [], rfl, .inl rfl, allDigits_nil, .inl rfl⟩
      · rw [numberToString, if_neg hzero, if_neg hneg]
        exact isLiteral_positiveText hx
          (lt_of_le_of_ne (not_lt.mp hneg) (Ne.symm hzero))
    have hscan := hliteral.scanUnsigned hrest
    obtain ⟨c, others, htext, hdigit⟩ := hliteral.head
    have hunsigned : c ≠ '-' := ne_of_isDigit hdigit (by decide)
    rw [htext] at hscan hread ⊢
    rw [readNumber, List.head?_cons, if_neg (by simp [hunsigned])] at hread
    rw [List.cons_append] at hscan ⊢
    rw [scanNumber, if_neg hunsigned, hscan, Option.map_some, Prod.map_apply,
      numberValue_eq hread]
    rfl

end Numbers

end StatementAnalyzer
