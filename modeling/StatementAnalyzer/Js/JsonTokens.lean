/-
The tokens of a JSON text, as `JSON.parse` takes them one after the other.  The
text has no surrogate without its partner.
-/
import StatementAnalyzer.Js.Stringify

namespace StatementAnalyzer

/-- A token: a mark, a string, or a value that is spelled by a word. -/
inductive JsonToken where
  | beginArray
  | endArray
  | beginObject
  | endObject
  | comma
  | colon
  | string (text : JsString)
  | scalar (value : JsValue)

def isJsonSpace (c : Char) : Bool :=
  c = ' ' || c = '\t' || c = '\n' || c = '\r'

/-- `[0-9a-fA-F]`, with its value. -/
def hexCharValue? (c : Char) : Option Nat :=
  if 0x30 ≤ c.toNat ∧ c.toNat ≤ 0x39 then some (c.toNat - 0x30)
  else if 0x61 ≤ c.toNat ∧ c.toNat ≤ 0x66 then some (c.toNat - 0x57)
  else if 0x41 ≤ c.toNat ∧ c.toNat ≤ 0x46 then some (c.toNat - 0x37)
  else none

/-- The characters that may follow a backslash, with what they stand for. -/
def escapedMarks : List (Char × Nat) :=
  [('"', 0x22), ('\\', 0x5C), ('/', 0x2F), ('b', 0x08), ('f', 0x0C),
    ('n', 0x0A), ('r', 0x0D), ('t', 0x09)]

def escapedChar? (mark : Char) : Option Char :=
  (escapedMarks.find? fun entry => entry.1 = mark).map fun entry =>
    Char.ofNat entry.2

/-- What a string is read in: a plain character, the mark behind a backslash, or
the digits behind `\u`, with those that were read. -/
inductive StringState where
  | plain
  | escape
  | unicode (count value : Nat)

/-- Units in front of what is read behind them. -/
def readUnits (units : JsString) :
    Option (JsString × List Char) → Option (JsString × List Char) :=
  Option.map (Prod.map (units ++ ·) id)

/-- A string up to its closing mark, and what is left of the text. -/
def scanString : StringState → List Char → Option (JsString × List Char)
  | _, [] => none
  | .plain, c :: rest =>
      if c = '"' then some ([], rest)
      else if c = '\\' then scanString .escape rest
      else if c.toNat < 0x20 then none
      else readUnits (utf16 c) (scanString .plain rest)
  | .escape, c :: rest =>
      if c = 'u' then scanString (.unicode 0 0) rest
      else
        match escapedChar? c with
        | some escaped => readUnits (utf16 escaped) (scanString .plain rest)
        | none => none
  | .unicode count value, c :: rest =>
      match hexCharValue? c with
      | some digit =>
          if count = 3 then
            readUnits [UInt16.ofNat (16 * value + digit)]
              (scanString .plain rest)
          else scanString (.unicode (count + 1) (16 * value + digit)) rest
      | none => none

/-- The digits that a text begins with, at least one. -/
def scanDigits (text : List Char) : Option (List Char × List Char) :=
  let digits := text.takeWhile Char.isDigit
  if digits = [] then none else some (digits, text.dropWhile Char.isDigit)

/-- An integer has no leading zero. -/
def scanInteger : List Char → Option (List Char × List Char)
  | [] => none
  | c :: rest =>
      if c = '0' then some (['0'], rest) else scanDigits (c :: rest)

def scanFraction : List Char → Option (List Char × List Char)
  | [] => some ([], [])
  | c :: rest => if c = '.' then scanDigits rest else some ([], c :: rest)

def scanSigned : List Char → Option (Int × List Char)
  | [] => none
  | c :: rest =>
      if c = '-' then (scanDigits rest).map
        (Prod.map (fun digits => -(Nat.ofDigitChars 10 digits 0 : Int)) id)
      else (scanDigits (if c = '+' then rest else c :: rest)).map
        (Prod.map (fun digits => (Nat.ofDigitChars 10 digits 0 : Int)) id)

def scanExponent : List Char → Option (Int × List Char)
  | [] => some (0, [])
  | c :: rest =>
      if c = 'e' ∨ c = 'E' then scanSigned rest else some (0, c :: rest)

/-- The exact number that a literal without a sign denotes. -/
def scanUnsigned (text : List Char) : Option (ℚ × List Char) := do
  let (integer, text) ← scanInteger text
  let (fraction, text) ← scanFraction text
  let (exponent, text) ← scanExponent text
  return (Nat.ofDigitChars 10 (integer ++ fraction) 0 *
    10 ^ (exponent - fraction.length), text)

/-- Its number value; negative zero is not told from zero. -/
def numberValue (negative : Bool) (magnitude : ℚ) : JsValue :=
  match toDouble magnitude with
  | some value => .number (if negative then -value else value)
  | none => .infinity negative

def scanNumber : List Char → Option (JsValue × List Char)
  | [] => none
  | c :: rest =>
      if c = '-' then (scanUnsigned rest).map (Prod.map (numberValue true) id)
      else (scanUnsigned (c :: rest)).map (Prod.map (numberValue false) id)

/-- A word that has to follow, with the value that it ends. -/
def scanWord (word : List Char) (value : JsValue) (text : List Char) :
    Option (JsonToken × List Char) :=
  if word.isPrefixOf text then some (.scalar value, text.drop word.length)
  else none

def markToken? (c : Char) : Option JsonToken :=
  if c = ']' then some .endArray
  else if c = '\x7d' then some .endObject
  else if c = ',' then some .comma
  else if c = ':' then some .colon
  else none

/-- The first token of a text without leading space, and what is left. -/
def scanToken : List Char → Option (JsonToken × List Char)
  | [] => none
  | c :: rest =>
      match JsValue.kindOf c with
      | .null => scanWord ['u', 'l', 'l'] .null rest
      | .true => scanWord ['r', 'u', 'e'] (.boolean true) rest
      | .false => scanWord ['a', 'l', 's', 'e'] (.boolean false) rest
      | .number => (scanNumber (c :: rest)).map (Prod.map .scalar id)
      | .string => (scanString .plain rest).map (Prod.map .string id)
      | .array => some (.beginArray, rest)
      | .object => some (.beginObject, rest)
      | .none => (markToken? c).map (·, rest)

/-- The tokens of a text; every one takes a character at least, so the fuel is
the length of the text. -/
def tokensWithin : Nat → List Char → Option (List JsonToken)
  | _, [] => some []
  | 0, _ :: _ => none
  | fuel + 1, c :: rest =>
      if isJsonSpace c then tokensWithin fuel rest
      else do
        let (token, rest) ← scanToken (c :: rest)
        let others ← tokensWithin fuel rest
        return token :: others

def jsonTokens (text : List Char) : Option (List JsonToken) :=
  tokensWithin text.length text

/-- The tokens of a text, with any space between them. -/
inductive Lexes : List Char → List JsonToken → Prop
  | nil : Lexes [] []
  | space {c : Char} {rest : List Char} {tokens : List JsonToken}
      (hspace : isJsonSpace c = true) (h : Lexes rest tokens) :
      Lexes (c :: rest) tokens
  | token {text rest : List Char} {token : JsonToken}
      {tokens : List JsonToken} (hscan : scanToken text = some (token, rest))
      (h : Lexes rest tokens) : Lexes text (token :: tokens)

section Lengths

variable {text rest : List Char}

theorem map_prodMap_eq_some {α β : Type} {f : α → β}
    {scanned : Option (α × List Char)} {value : β}
    (h : scanned.map (Prod.map f id) = some (value, rest)) :
    ∃ found, scanned = some (found, rest) ∧ f found = value := by
  obtain ⟨⟨found, left⟩, hfound, heq⟩ := Option.map_eq_some_iff.mp h
  obtain ⟨hvalue, rfl⟩ := Prod.mk.inj heq
  exact ⟨found, hfound, hvalue⟩

theorem length_scanDigits {digits : List Char}
    (h : scanDigits text = some (digits, rest)) : rest.length < text.length := by
  simp only [scanDigits, Option.ite_none_left_eq_some, Option.some.injEq,
    Prod.mk.injEq] at h
  obtain ⟨hne, rfl, rfl⟩ := h
  have hsplit := congrArg List.length
    (List.takeWhile_append_dropWhile (p := Char.isDigit) (l := text))
  rw [List.length_append] at hsplit
  have hpos := List.length_pos_iff.mpr hne
  omega

theorem length_scanString {state : StringState} {units : JsString}
    (h : scanString state text = some (units, rest)) :
    rest.length < text.length := by
  induction text generalizing state units with
  | nil => cases state <;> cases h
  | cons c others ih =>
      have hothers : ∀ state units, scanString state others = some (units, rest) →
          rest.length < (c :: others).length := fun state units h =>
        (ih h).trans (Nat.lt_succ_self _)
      have hread : ∀ read, readUnits read (scanString .plain others) =
          some (units, rest) → rest.length < (c :: others).length := by
        intro read h
        obtain ⟨found, hfound, -⟩ := map_prodMap_eq_some h
        exact hothers _ _ hfound
      cases state with
      | plain =>
          simp only [scanString] at h
          split at h
          · cases h
            exact Nat.lt_succ_self _
          · split at h
            · exact hothers _ _ h
            · split at h
              · cases h
              · exact hread _ h
      | escape =>
          simp only [scanString] at h
          split at h
          · exact hothers _ _ h
          · split at h
            · exact hread _ h
            · cases h
      | unicode count value =>
          simp only [scanString] at h
          split at h
          · split at h
            · exact hread _ h
            · exact hothers _ _ h
          · cases h

theorem length_scanInteger {digits : List Char}
    (h : scanInteger text = some (digits, rest)) : rest.length < text.length := by
  cases text with
  | nil => cases h
  | cons c others =>
      rw [scanInteger] at h
      split at h
      · cases h
        exact Nat.lt_succ_self _
      · exact length_scanDigits h

theorem length_scanFraction {digits : List Char}
    (h : scanFraction text = some (digits, rest)) :
    rest.length ≤ text.length := by
  cases text with
  | nil =>
      cases h
      exact Nat.le_refl _
  | cons c others =>
      rw [scanFraction] at h
      split at h
      · exact (length_scanDigits h).le.trans (Nat.le_succ _)
      · cases h
        exact Nat.le_refl _

theorem length_scanSigned {exponent : Int}
    (h : scanSigned text = some (exponent, rest)) : rest.length < text.length := by
  cases text with
  | nil => cases h
  | cons c others =>
      rw [scanSigned] at h
      split at h
      · obtain ⟨digits, hdigits, -⟩ := map_prodMap_eq_some h
        exact (length_scanDigits hdigits).trans (Nat.lt_succ_self _)
      · obtain ⟨digits, hdigits, -⟩ := map_prodMap_eq_some h
        have hlength := length_scanDigits hdigits
        split at hlength
        · exact hlength.trans (Nat.lt_succ_self _)
        · exact hlength

theorem length_scanExponent {exponent : Int}
    (h : scanExponent text = some (exponent, rest)) :
    rest.length ≤ text.length := by
  cases text with
  | nil =>
      cases h
      exact Nat.le_refl _
  | cons c others =>
      rw [scanExponent] at h
      split at h
      · exact (length_scanSigned h).le.trans (Nat.le_succ _)
      · cases h
        exact Nat.le_refl _

theorem length_scanUnsigned {magnitude : ℚ}
    (h : scanUnsigned text = some (magnitude, rest)) :
    rest.length < text.length := by
  simp only [scanUnsigned, Option.bind_eq_bind, Option.bind_eq_some_iff,
    Prod.exists, Option.pure_def, Option.some.injEq, Prod.mk.injEq] at h
  obtain ⟨integer, text₁, hinteger, fraction, text₂, hfraction, exponent, text₃,
    hexponent, -, rfl⟩ := h
  have h₁ := length_scanInteger hinteger
  have h₂ := length_scanFraction hfraction
  have h₃ := length_scanExponent hexponent
  omega

theorem length_scanNumber {value : JsValue}
    (h : scanNumber text = some (value, rest)) : rest.length < text.length := by
  cases text with
  | nil => cases h
  | cons c others =>
      rw [scanNumber] at h
      split at h
      · obtain ⟨magnitude, hscan, -⟩ := map_prodMap_eq_some h
        exact (length_scanUnsigned hscan).trans (Nat.lt_succ_self _)
      · obtain ⟨magnitude, hscan, -⟩ := map_prodMap_eq_some h
        exact length_scanUnsigned hscan

theorem length_scanWord {word : List Char} {value : JsValue}
    {token : JsonToken} (h : scanWord word value text = some (token, rest)) :
    rest.length ≤ text.length := by
  simp only [scanWord, Option.ite_none_right_eq_some, Option.some.injEq,
    Prod.mk.injEq] at h
  obtain ⟨-, -, rfl⟩ := h
  rw [List.length_drop]
  exact Nat.sub_le _ _

/-- Every token takes a character at least. -/
theorem length_scanToken {token : JsonToken}
    (h : scanToken text = some (token, rest)) : rest.length < text.length := by
  cases text with
  | nil => cases h
  | cons c others =>
      simp only [scanToken] at h
      split at h
      · exact Nat.lt_succ_of_le (length_scanWord h)
      · exact Nat.lt_succ_of_le (length_scanWord h)
      · exact Nat.lt_succ_of_le (length_scanWord h)
      · obtain ⟨value, hscan, -⟩ := map_prodMap_eq_some h
        exact length_scanNumber hscan
      · obtain ⟨units, hscan, -⟩ := map_prodMap_eq_some h
        exact (length_scanString hscan).trans (Nat.lt_succ_self _)
      · cases h
        exact Nat.lt_succ_self _
      · cases h
        exact Nat.lt_succ_self _
      · obtain ⟨mark, -, heq⟩ := Option.map_eq_some_iff.mp h
        obtain ⟨-, rfl⟩ := Prod.mk.inj heq
        exact Nat.lt_succ_self _

end Lengths

section Lexes

variable {text : List Char} {tokens : List JsonToken}

theorem scanToken_space {c : Char} (hspace : isJsonSpace c = true)
    (rest : List Char) : scanToken (c :: rest) = none := by
  simp only [isJsonSpace, Bool.or_eq_true, decide_eq_true_eq] at hspace
  rcases hspace with ((rfl | rfl) | rfl) | rfl <;> rfl

theorem Lexes.of_tokensWithin {fuel : Nat}
    (h : tokensWithin fuel text = some tokens) : Lexes text tokens := by
  induction fuel generalizing text tokens with
  | zero =>
      cases text with
      | nil =>
          cases h
          exact .nil
      | cons c rest => cases h
  | succ fuel ih =>
      cases text with
      | nil =>
          cases h
          exact .nil
      | cons c rest =>
          rw [tokensWithin] at h
          split at h
          · rename_i hspace
            exact .space hspace (ih h)
          · simp only [Option.bind_eq_bind, Option.bind_eq_some_iff,
              Prod.exists, Option.pure_def, Option.some.injEq] at h
            obtain ⟨token, left, hscan, others, hothers, rfl⟩ := h
            exact .token hscan (ih hothers)

theorem Lexes.tokensWithin {fuel : Nat} (h : Lexes text tokens)
    (hfuel : text.length ≤ fuel) : tokensWithin fuel text = some tokens := by
  induction h generalizing fuel with
  | nil => cases fuel <;> rfl
  | @space c rest tokens hspace h ih =>
      obtain ⟨fuel, rfl⟩ : ∃ less, fuel = less + 1 :=
        Nat.exists_eq_succ_of_ne_zero (by rintro rfl; cases hfuel)
      rw [StatementAnalyzer.tokensWithin, if_pos hspace]
      exact ih (Nat.le_of_succ_le_succ hfuel)
  | @token text rest token tokens hscan h ih =>
      have hlength := length_scanToken hscan
      cases text with
      | nil => cases hscan
      | cons c others =>
          obtain ⟨fuel, rfl⟩ : ∃ less, fuel = less + 1 :=
            Nat.exists_eq_succ_of_ne_zero (by rintro rfl; cases hfuel)
          have hspace : ¬isJsonSpace c = true := by
            intro hspace
            rw [scanToken_space hspace] at hscan
            cases hscan
          rw [List.length_cons] at hfuel hlength
          rw [StatementAnalyzer.tokensWithin, if_neg hspace, hscan]
          have hothers : StatementAnalyzer.tokensWithin fuel rest = some tokens :=
            ih (by omega)
          simp [hothers]

/-- The fuel is enough for every text. -/
theorem jsonTokens_eq_some_iff :
    jsonTokens text = some tokens ↔ Lexes text tokens :=
  ⟨Lexes.of_tokensWithin, fun h => h.tokensWithin (Nat.le_refl _)⟩

end Lexes

end StatementAnalyzer
