/-
The text of a statement id: how it is written, and what `statementIdSchema` and
`analyzeJobMessageSchema` read back.
-/
import StatementAnalyzer.Api.Statements

namespace StatementAnalyzer

def hyphen : UInt16 := 0x2D

/-- `[0-9a-fA-F]`, with its value. -/
def hexValue? (unit : UInt16) : Option Nat :=
  if 0x30 ≤ unit && unit ≤ 0x39 then some (unit.toNat - 0x30)
  else if 0x61 ≤ unit && unit ≤ 0x66 then some (unit.toNat - 0x57)
  else if 0x41 ≤ unit && unit ≤ 0x46 then some (unit.toNat - 0x37)
  else none

/-- The number that the digits denote, highest first. -/
def readHex? (digits : JsString) : Option Nat :=
  digits.foldl (fun read unit => do
    let value ← read
    let digit ← hexValue? unit
    return 16 * value + digit) (some 0)

/-- The version and the variant of RFC 9562, or one of its two special ids. -/
def Uuid.isRfc (id : Uuid) : Bool :=
  let version := id.bits.toNat / 16 ^ 19 % 16
  let variant := id.bits.toNat / 16 ^ 15 % 16
  (1 ≤ version && version ≤ 8 && 8 ≤ variant && variant ≤ 11) ||
    id.bits = 0 || id.bits = BitVec.allOnes 128

def Uuid.max : Uuid := ⟨BitVec.allOnes 128⟩

/-- `z.string().uuid()`, with the id that the text names.  Its expression takes
digits of either case, except for the largest id. -/
def statementIdSchema (text : JsString) : Option Uuid := do
  let groups := text.splitOn hyphen
  if groups.map List.length = [8, 4, 4, 4, 12] then
    let value ← readHex? groups.flatten
    let id : Uuid := ⟨BitVec.ofNat 128 value⟩
    if id = Uuid.max ∧ text ≠ js "ffffffff-ffff-ffff-ffff-ffffffffffff" then none
    else if id.isRfc then return id else none
  else none

section Digits

theorem hexValue?_hexDigit : ∀ n < 16, hexValue? (hexDigit n) = some n := by
  decide

theorem hexDigit_ne_hyphen : ∀ n < 16, hexDigit n ≠ hyphen := by
  decide

theorem length_hexDigits (n count : Nat) : (hexDigits n count).length = count := by
  induction count generalizing n with
  | zero => rfl
  | succ count ih =>
      rw [hexDigits, List.length_append, ih]
      rfl

theorem readHex?_hexDigits (n count : Nat) :
    readHex? (hexDigits n count) = some (n % 16 ^ count) := by
  induction count generalizing n with
  | zero =>
      rw [Nat.pow_zero, Nat.mod_one]
      rfl
  | succ count ih =>
      have hinit : (hexDigits (n / 16) count).foldl (fun read unit => do
          let value ← read
          let digit ← hexValue? unit
          return 16 * value + digit) (some 0) = some (n / 16 % 16 ^ count) :=
        ih (n / 16)
      rw [readHex?, hexDigits, List.foldl_append, hinit, List.foldl_cons,
        List.foldl_nil, hexValue?_hexDigit _ (Nat.mod_lt n (by decide)),
        Nat.pow_succ, Nat.mul_comm (16 ^ count) 16, Nat.mod_mul]
      simp only [Option.bind_eq_bind, Option.bind_some, Option.pure_def,
        Option.some.injEq]
      omega

theorem hyphen_notMem_hexDigits (n count : Nat) :
    hyphen ∉ hexDigits n count := by
  induction count generalizing n with
  | zero => exact List.not_mem_nil
  | succ count ih =>
      rw [hexDigits, List.mem_append, List.mem_singleton, not_or]
      exact ⟨ih (n / 16), (hexDigit_ne_hyphen _ (Nat.mod_lt n (by decide))).symm⟩

end Digits

section Text

/-- The five groups of digits in the text of an id. -/
def Uuid.groups (id : Uuid) : List JsString :=
  let digits := hexDigits id.bits.toNat 32
  [digits.take 8, (digits.drop 8).take 4, (digits.drop 12).take 4,
    (digits.drop 16).take 4, digits.drop 20]

theorem Uuid.flatten_groups (id : Uuid) :
    id.groups.flatten = hexDigits id.bits.toNat 32 := by
  have hdrop : ∀ (digits : JsString) (n : Nat),
      (digits.drop n).take 4 ++ digits.drop (n + 4) = digits.drop n := by
    intro digits n
    rw [← List.drop_drop, List.take_append_drop]
  simp only [Uuid.groups, List.flatten_cons, List.flatten_nil, List.append_nil]
  rw [hdrop _ 16, hdrop _ 12, hdrop _ 8, List.take_append_drop]

theorem Uuid.text_eq_intercalate (id : Uuid) :
    id.text = [hyphen].intercalate id.groups := by
  simp only [Uuid.text, Uuid.groups, List.intercalate, List.intersperse,
    List.flatten_cons, List.flatten_nil, List.append_nil, List.append_assoc]
  rfl

theorem Uuid.splitOn_text (id : Uuid) : id.text.splitOn hyphen = id.groups := by
  rw [Uuid.text_eq_intercalate]
  apply List.splitOn_intercalate
  · intro group hgroup hmem
    apply hyphen_notMem_hexDigits id.bits.toNat 32
    rw [← id.flatten_groups]
    exact List.mem_flatten_of_mem hgroup hmem
  · exact List.cons_ne_nil _ _

theorem Uuid.toNat_mod (id : Uuid) : id.bits.toNat % 16 ^ 32 = id.bits.toNat := by
  have hbound : 2 ^ 128 = 16 ^ 32 := by decide
  exact Nat.mod_eq_of_lt (hbound ▸ id.bits.isLt)

example : statementIdSchema (js "FFFFFFFF-FFFF-FFFF-FFFF-FFFFFFFFFFFF") =
    none := by decide

/-- The schema reads back every id that it allows, and no other. -/
theorem statementIdSchema_text (id : Uuid) :
    statementIdSchema id.text = if id.isRfc then some id else none := by
  have hlengths : id.groups.map List.length = [8, 4, 4, 4, 12] := by
    simp [Uuid.groups, length_hexDigits]
  have hvalue : BitVec.ofNat 128 (id.bits.toNat % 16 ^ 32) = id.bits := by
    rw [id.toNat_mod, BitVec.ofNat_toNat, BitVec.setWidth_eq]
  have hmax : ¬(id = Uuid.max ∧
      id.text ≠ js "ffffffff-ffff-ffff-ffff-ffffffffffff") := by
    rintro ⟨rfl, htext⟩
    exact htext (by decide)
  rw [statementIdSchema]
  simp only [Uuid.splitOn_text, hlengths, if_true, Uuid.flatten_groups,
    readHex?_hexDigits, Option.bind_eq_bind, Option.bind_some, hvalue,
    if_neg hmax, Option.pure_def]

/-- The text of an id names no other. -/
theorem Uuid.text_injective {id id' : Uuid} (h : id.text = id'.text) :
    id = id' := by
  have hdigits : hexDigits id.bits.toNat 32 = hexDigits id'.bits.toNat 32 := by
    rw [← id.flatten_groups, ← id'.flatten_groups, ← id.splitOn_text,
      ← id'.splitOn_text, h]
  have hvalue := congrArg readHex? hdigits
  rw [readHex?_hexDigits, readHex?_hexDigits, Option.some.injEq, id.toNat_mod,
    id'.toNat_mod] at hvalue
  have hbits : id.bits = id'.bits := BitVec.eq_of_toNat_eq hvalue
  cases id
  cases id'
  exact congrArg Uuid.mk hbits

theorem isSurrogate_hexDigit : ∀ n < 16, isSurrogate (hexDigit n) = false := by
  decide

theorem isSurrogate_hexDigits (n count : Nat) :
    ∀ unit ∈ hexDigits n count, isSurrogate unit = false := by
  induction count generalizing n with
  | zero => exact List.forall_mem_nil _
  | succ count ih =>
      rw [hexDigits, List.forall_mem_append, List.forall_mem_singleton]
      exact ⟨ih (n / 16), isSurrogate_hexDigit _ (Nat.mod_lt n (by decide))⟩

theorem isSurrogate_of_any {text : JsString}
    (h : text.any isSurrogate = false) :
    ∀ unit ∈ text, isSurrogate unit = false := by
  intro unit hunit
  rw [List.any_eq_false] at h
  exact Bool.eq_false_iff.mpr (h unit hunit)

/-- The key of an object consists of characters that UTF-8 keeps. -/
theorem utf8Text_s3Key (id : Uuid) :
    utf8Text (js "statements/" ++ id.text ++ js "/source") =
      js "statements/" ++ id.text ++ js "/source" := by
  have hdigits := isSurrogate_hexDigits id.bits.toNat 32
  have hpart : ∀ first count, ∀ unit ∈
      ((hexDigits id.bits.toNat 32).drop first).take count,
      isSurrogate unit = false := fun first count unit hunit =>
    hdigits unit (List.mem_of_mem_drop (List.mem_of_mem_take hunit))
  have htext : ∀ unit ∈ id.text, isSurrogate unit = false := by
    have hhyphen : ∀ unit ∈ js "-", isSurrogate unit = false :=
      isSurrogate_of_any (by decide)
    simp only [Uuid.text, List.forall_mem_append]
    exact ⟨⟨⟨⟨⟨⟨⟨⟨hpart 0 8, hhyphen⟩, hpart 8 4⟩, hhyphen⟩, hpart 12 4⟩,
      hhyphen⟩, hpart 16 4⟩, hhyphen⟩,
      fun unit hunit => hdigits unit (List.mem_of_mem_drop hunit)⟩
  apply utf8Text_eq_self
  simp only [List.forall_mem_append]
  exact ⟨⟨isSurrogate_of_any (by decide), htext⟩,
    isSurrogate_of_any (by decide)⟩

end Text

end StatementAnalyzer
