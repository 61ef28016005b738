/-
Strings by their code points: the length that Zod bounds, and the form in which
a text reaches the database.
-/
import StatementAnalyzer.Js.Text

namespace StatementAnalyzer

def isLead (unit : UInt16) : Bool := 0xD800 ≤ unit && unit < 0xDC00

def isTrail (unit : UInt16) : Bool := 0xDC00 ≤ unit && unit < 0xE000

def isSurrogate (unit : UInt16) : Bool := 0xD800 ≤ unit && unit < 0xE000

/-- A character of a string, or a surrogate without its partner. -/
inductive CodePoint where
  | scalar (c : Char)
  | surrogate (unit : UInt16) (h : isSurrogate unit = true)

def pairChar (lead trail : UInt16) : Char :=
  Char.ofNat (0x10000 + (lead.toNat - 0xD800) * 0x400 + (trail.toNat - 0xDC00))

def unitPoint (unit : UInt16) : CodePoint :=
  if h : isSurrogate unit = true then .surrogate unit h
  else .scalar (Char.ofNat unit.toNat)

/-- `StringToCodePoints`. -/
def codePoints : JsString → List CodePoint
  | [] => []
  | [unit] => [unitPoint unit]
  | first :: second :: rest =>
      if isLead first && isTrail second then
        .scalar (pairChar first second) :: codePoints rest
      else unitPoint first :: codePoints (second :: rest)

/-- The length of a text for `min` and `max` of a Zod string. -/
def codePointLength (text : JsString) : Nat :=
  (codePoints text).length

/-- The code units of a code point. -/
def CodePoint.units : CodePoint → JsString
  | .scalar c => utf16 c
  | .surrogate unit _ => [unit]

/-- What UTF-8 makes of a code point: it has no surrogates. -/
def CodePoint.char : CodePoint → Char
  | .scalar c => c
  | .surrogate _ _ => '\uFFFD'

def CodePoint.isScalar : CodePoint → Bool
  | .scalar _ => true
  | .surrogate _ _ => false

/-- `isWellFormed`: every surrogate has its partner. -/
def isWellFormed (text : JsString) : Bool :=
  (codePoints text).all CodePoint.isScalar

/-- A text as the client sends it to the database, in UTF-8. -/
def utf8Text (text : JsString) : JsString :=
  ((codePoints text).map CodePoint.char).flatMap utf16

example : utf8Text (js "a" ++ [0xD800, 0xD83D, 0xDE00]) = js "a\uFFFD😀" := by
  decide

section CodePoints

theorem toNat_ofNat {n : Nat} (h : n.isValidChar) : (Char.ofNat n).toNat = n := by
  rw [Char.ofNat, dif_pos h]
  rfl

theorem units_unitPoint (unit : UInt16) : (unitPoint unit).units = [unit] := by
  rw [unitPoint]
  split
  · rfl
  · rename_i hunit
    have hlt := unit.toNat_lt
    have hvalid : unit.toNat.isValidChar := by
      simp only [isSurrogate, Bool.and_eq_true, decide_eq_true_eq,
        UInt16.le_iff_toNat_le, UInt16.lt_iff_toNat_lt] at hunit
      change ¬(55296 ≤ unit.toNat ∧ unit.toNat < 57344) at hunit
      rw [Nat.isValidChar]
      omega
    rw [CodePoint.units, utf16, toNat_ofNat hvalid, if_pos (by omega)]
    simp

theorem utf16_pairChar {lead trail : UInt16} (hlead : isLead lead = true)
    (htrail : isTrail trail = true) :
    utf16 (pairChar lead trail) = [lead, trail] := by
  simp only [isLead, isTrail, Bool.and_eq_true, decide_eq_true_eq,
    UInt16.le_iff_toNat_le, UInt16.lt_iff_toNat_lt] at hlead htrail
  change 55296 ≤ lead.toNat ∧ lead.toNat < 56320 at hlead
  change 56320 ≤ trail.toNat ∧ trail.toNat < 57344 at htrail
  have hvalid : (0x10000 + (lead.toNat - 0xD800) * 0x400 +
      (trail.toNat - 0xDC00)).isValidChar := by
    rw [Nat.isValidChar]
    omega
  have hhigh : 0xD800 + (0x10000 + (lead.toNat - 0xD800) * 0x400 +
      (trail.toNat - 0xDC00) - 0x10000) / 0x400 = lead.toNat := by omega
  have hlow : 0xDC00 + (0x10000 + (lead.toNat - 0xD800) * 0x400 +
      (trail.toNat - 0xDC00) - 0x10000) % 0x400 = trail.toNat := by omega
  rw [utf16, pairChar, toNat_ofNat hvalid, if_neg (by omega)]
  simp only [hhigh, hlow, UInt16.ofNat_toNat, Nat.toUInt16_eq]

/-- A string is what its code points encode. -/
theorem flatMap_units_codePoints (text : JsString) :
    (codePoints text).flatMap CodePoint.units = text := by
  induction text using codePoints.induct with
  | case1 => rfl
  | case2 unit => simp [codePoints, units_unitPoint]
  | case3 first second rest hpair ih =>
      rw [codePoints, if_pos hpair, List.flatMap_cons, ih]
      rw [Bool.and_eq_true] at hpair
      rw [CodePoint.units, utf16_pairChar hpair.1 hpair.2]
      rfl
  | case4 first second rest hpair ih =>
      rw [codePoints, if_neg hpair, List.flatMap_cons, ih, units_unitPoint]
      rfl

theorem codePoints_injective {text text' : JsString}
    (h : codePoints text = codePoints text') : text = text' := by
  rw [← flatMap_units_codePoints text, h, flatMap_units_codePoints]

theorem codePoints_cons {first : UInt16} (h : isLead first = false)
    (rest : JsString) :
    codePoints (first :: rest) = unitPoint first :: codePoints rest := by
  cases rest with
  | nil => rfl
  | cons second rest =>
      rw [codePoints, if_neg]
      simp [h]

/-- A character is read back, whatever follows it. -/
theorem codePoints_utf16 (c : Char) (rest : JsString) :
    codePoints (utf16 c ++ rest) = .scalar c :: codePoints rest := by
  have hvalid : c.toNat.isValidChar := c.valid
  rw [Nat.isValidChar] at hvalid
  by_cases hsmall : c.toNat < 0x10000
  · have htoNat : c.toNat.toUInt16.toNat = c.toNat := by
      rw [Nat.toUInt16_eq, UInt16.toNat_ofNat']
      omega
    have hlead : isLead c.toNat.toUInt16 = false := by
      simp only [isLead, Bool.and_eq_false_iff, decide_eq_false_iff_not,
        UInt16.le_iff_toNat_le, UInt16.lt_iff_toNat_lt, htoNat]
      change ¬55296 ≤ c.toNat ∨ ¬c.toNat < 56320
      omega
    have hpoint : unitPoint c.toNat.toUInt16 = .scalar c := by
      rw [unitPoint, dif_neg, htoNat, Char.ofNat_toNat]
      simp only [isSurrogate, Bool.and_eq_true, decide_eq_true_eq,
        UInt16.le_iff_toNat_le, UInt16.lt_iff_toNat_lt, htoNat]
      change ¬(55296 ≤ c.toNat ∧ c.toNat < 57344)
      omega
    rw [utf16, if_pos hsmall, List.singleton_append, codePoints_cons hlead,
      hpoint]
  · set lead := (0xD800 + (c.toNat - 0x10000) / 0x400).toUInt16 with hlead
    set trail := (0xDC00 + (c.toNat - 0x10000) % 0x400).toUInt16 with htrail
    have hlead' : lead.toNat = 0xD800 + (c.toNat - 0x10000) / 0x400 := by
      rw [hlead, Nat.toUInt16_eq, UInt16.toNat_ofNat']
      omega
    have htrail' : trail.toNat = 0xDC00 + (c.toNat - 0x10000) % 0x400 := by
      rw [htrail, Nat.toUInt16_eq, UInt16.toNat_ofNat']
      omega
    have hpair : (isLead lead && isTrail trail) = true := by
      simp only [isLead, isTrail, Bool.and_eq_true, decide_eq_true_eq,
        UInt16.le_iff_toNat_le, UInt16.lt_iff_toNat_lt, hlead', htrail']
      change (55296 ≤ _ ∧ _ < 56320) ∧ 56320 ≤ _ ∧ _ < 57344
      omega
    have hchar : pairChar lead trail = c := by
      have hvalue : 0x10000 + (lead.toNat - 0xD800) * 0x400 +
          (trail.toNat - 0xDC00) = c.toNat := by omega
      rw [pairChar, hvalue, Char.ofNat_toNat]
    have hunits : utf16 c = [lead, trail] := if_neg hsmall
    rw [hunits, List.cons_append, List.cons_append, List.nil_append, codePoints,
      if_pos hpair, hchar]

theorem codePoints_flatMap_utf16 (text : List Char) :
    codePoints (text.flatMap utf16) = text.map CodePoint.scalar := by
  induction text with
  | nil => rfl
  | cons c rest ih => rw [List.flatMap_cons, codePoints_utf16, ih, List.map_cons]

end CodePoints

section Utf8

variable {text : JsString}

theorem codePoints_utf8Text (text : JsString) : codePoints (utf8Text text) =
    ((codePoints text).map CodePoint.char).map CodePoint.scalar :=
  codePoints_flatMap_utf16 _

/-- No code point is lost. -/
@[simp] theorem codePointLength_utf8Text (text : JsString) :
    codePointLength (utf8Text text) = codePointLength text := by
  simp [codePointLength, codePoints_utf8Text]

theorem utf8Text_flatMap_utf16 (text : List Char) :
    utf8Text (text.flatMap utf16) = text.flatMap utf16 := by
  have hchars : (text.map CodePoint.scalar).map CodePoint.char = text := by
    rw [List.map_map]
    exact List.map_id text
  rw [utf8Text, codePoints_flatMap_utf16, hchars]

@[simp] theorem utf8Text_js (text : String) : utf8Text (js text) = js text :=
  utf8Text_flatMap_utf16 _

/-- Exactly the well-formed texts reach the database as they are. -/
theorem utf8Text_eq_self_iff : utf8Text text = text ↔
    isWellFormed text = true := by
  constructor
  · intro h
    rw [← h, isWellFormed, codePoints_utf8Text, List.all_map]
    simp [CodePoint.isScalar]
  · intro h
    have hunits : ∀ point ∈ codePoints text,
        utf16 point.char = point.units := by
      intro point hpoint
      have hscalar := List.all_eq_true.mp h point hpoint
      cases point with
      | scalar c => rfl
      | surrogate unit hunit => cases hscalar
    calc utf8Text text = (codePoints text).flatMap CodePoint.units := by
          rw [utf8Text, List.flatMap_map]
          exact List.flatMap_congr hunits
      _ = text := flatMap_units_codePoints text

/-- Without surrogates nothing needs a replacement. -/
theorem utf8Text_eq_self (h : ∀ unit ∈ text, isSurrogate unit = false) :
    utf8Text text = text := by
  rw [utf8Text_eq_self_iff]
  induction text with
  | nil => rfl
  | cons first rest ih =>
      rw [List.forall_mem_cons] at h
      have hlead : isLead first = false := by
        have hsurrogate := h.1
        simp only [isSurrogate, isLead, Bool.and_eq_false_iff,
          decide_eq_false_iff_not, UInt16.le_iff_toNat_le,
          UInt16.lt_iff_toNat_lt] at hsurrogate ⊢
        change ¬55296 ≤ first.toNat ∨ ¬first.toNat < 57344 at hsurrogate
        change ¬55296 ≤ first.toNat ∨ ¬first.toNat < 56320
        omega
      have hpoint : unitPoint first = .scalar (Char.ofNat first.toNat) := by
        rw [unitPoint, dif_neg]
        rw [h.1]
        exact Bool.false_ne_true
      rw [isWellFormed, codePoints_cons hlead, List.all_cons, hpoint]
      exact ih h.2

theorem utf16_ne_nil (c : Char) : utf16 c ≠ [] := by
  rw [utf16]
  split <;> simp

theorem CodePoint.units_ne_nil (point : CodePoint) : point.units ≠ [] := by
  cases point with
  | scalar c => exact utf16_ne_nil c
  | surrogate unit h => exact List.cons_ne_nil _ _

/-- A unit that is no part of a surrogate stays where it is. -/
theorem mem_utf8Text_iff {unit : UInt16} (hunit : isSurrogate unit = false)
    (hreplacement : unit ≠ 0xFFFD) : unit ∈ utf8Text text ↔ unit ∈ text := by
  have hpoint : ∀ point : CodePoint,
      unit ∈ utf16 point.char ↔ unit ∈ point.units := by
    intro point
    cases point with
    | scalar c => rfl
    | surrogate other hother =>
        have hne : unit ≠ other := by
          rintro rfl
          rw [hunit] at hother
          cases hother
        have hchar : utf16 '\uFFFD' = [0xFFFD] := by decide
        simp [CodePoint.char, hchar, CodePoint.units, hreplacement, hne]
  calc unit ∈ utf8Text text
      ↔ ∃ point ∈ codePoints text, unit ∈ utf16 point.char := by
        simp [utf8Text]
    _ ↔ unit ∈ (codePoints text).flatMap CodePoint.units := by
        simp [List.mem_flatMap, hpoint]
    _ ↔ unit ∈ text := by rw [flatMap_units_codePoints]

/-- Neither end of a code point is white space unless it is so in UTF-8. -/
theorem CodePoint.isWhiteSpace_char (point : CodePoint) :
    ((utf16 point.char).head?.any isWhiteSpace =
      point.units.head?.any isWhiteSpace) ∧
    ((utf16 point.char).getLast?.any isWhiteSpace =
      point.units.getLast?.any isWhiteSpace) := by
  cases point with
  | scalar c => exact ⟨rfl, rfl⟩
  | surrogate unit h =>
      have hchar : utf16 '\uFFFD' = [0xFFFD] := by decide
      have hreplacement : isWhiteSpace 0xFFFD = false := by decide
      have hunit : isWhiteSpace unit = false := by
        simp only [isSurrogate, Bool.and_eq_true, decide_eq_true_eq,
          UInt16.le_iff_toNat_le, UInt16.lt_iff_toNat_lt] at h
        change 55296 ≤ unit.toNat ∧ unit.toNat < 57344 at h
        simp only [isWhiteSpace, Bool.or_eq_false_iff, decide_eq_false_iff_not,
          Bool.and_eq_false_iff, List.mem_cons, List.not_mem_nil, or_false,
          ← UInt16.toNat_inj, UInt16.le_iff_toNat_le]
        simp only [UInt16.reduceToNat]
        omega
      simp [CodePoint.char, hchar, CodePoint.units, hreplacement, hunit]

theorem any_findSome?_congr {f g : CodePoint → Option UInt16}
    (hf : ∀ point, (f point).isSome = true)
    (hg : ∀ point, (g point).isSome = true)
    (h : ∀ point, (f point).any isWhiteSpace = (g point).any isWhiteSpace)
    (points : List CodePoint) :
    (points.findSome? f).any isWhiteSpace =
      (points.findSome? g).any isWhiteSpace := by
  cases points with
  | nil => rfl
  | cons point rest =>
      obtain ⟨unit, hunit⟩ := Option.isSome_iff_exists.mp (hf point)
      obtain ⟨unit', hunit'⟩ := Option.isSome_iff_exists.mp (hg point)
      have hsame := h point
      rw [hunit, hunit'] at hsame
      rw [List.findSome?_cons, List.findSome?_cons, hunit, hunit']
      exact hsame

/-- A trimmed text stays trimmed. -/
theorem trim_utf8Text (h : trim text = text) :
    trim (utf8Text text) = utf8Text text := by
  have hhead : ∀ units : JsString, units ≠ [] → units.head?.isSome = true :=
    fun units hunits => List.isSome_head?.mpr hunits
  have hlast : ∀ units : JsString, units ≠ [] → units.getLast?.isSome = true :=
    fun units hunits => List.getLast?_isSome.mpr hunits
  have hutf8 : utf8Text text =
      (codePoints text).flatMap fun point => utf16 point.char := by
    rw [utf8Text, List.flatMap_map]
  rw [trim_eq_self_iff] at h ⊢
  rw [← flatMap_units_codePoints text, List.head?_flatMap,
    List.getLast?_flatMap] at h
  rw [hutf8, List.head?_flatMap, List.getLast?_flatMap]
  have hfirst := any_findSome?_congr
    (f := fun point => (utf16 point.char).head?)
    (g := fun point => point.units.head?)
    (fun point => hhead _ (utf16_ne_nil _)) (fun point => hhead _ point.units_ne_nil)
    (fun point => point.isWhiteSpace_char.1) (codePoints text)
  have hend := any_findSome?_congr
    (f := fun point => (utf16 point.char).getLast?)
    (g := fun point => point.units.getLast?)
    (fun point => hlast _ (utf16_ne_nil _)) (fun point => hlast _ point.units_ne_nil)
    (fun point => point.isWhiteSpace_char.2) (codePoints text).reverse
  exact ⟨hfirst.trans h.1, hend.trans h.2⟩

end Utf8

end StatementAnalyzer
