/-
JavaScript strings as sequences of UTF-16 code units, and the operations on
them that the service uses.
-/
import Mathlib.Data.List.DropRight

namespace StatementAnalyzer

/-- A JavaScript string: its UTF-16 code units, paired or not. -/
abbrev JsString := List UInt16

/-- The code units of one Unicode character. -/
def utf16 (c : Char) : JsString :=
  let n := c.toNat
  if n < 0x10000 then [n.toUInt16]
  else
    [(0xD800 + (n - 0x10000) / 0x400).toUInt16,
      (0xDC00 + (n - 0x10000) % 0x400).toUInt16]

/-- A string literal of the source. -/
def js (text : String) : JsString :=
  text.toList.flatMap utf16

example : js "明細" = [0x660E, 0x7D30] := by decide

/-- White space and line terminators, as `trim` removes them. -/
def isWhiteSpace (unit : UInt16) : Bool :=
  unit ∈ ([0x0009, 0x000A, 0x000B, 0x000C, 0x000D, 0x0020, 0x00A0, 0x1680,
    0x2028, 0x2029, 0x202F, 0x205F, 0x3000, 0xFEFF] : List UInt16) ||
    (0x2000 ≤ unit && unit ≤ 0x200A)

/-- `String.prototype.trim`. -/
def trim (text : JsString) : JsString :=
  ((text.dropWhile isWhiteSpace).reverse.dropWhile isWhiteSpace).reverse

/-- A comparison of two texts by their units, as the sorts use it. -/
theorem comparison_nonpos_iff {left right : JsString} :
    (if left = right then 0 else if left < right then -1 else 1 : Int) ≤ 0 ↔
      left ≤ right := by
  split
  · rename_i heq
    simp [heq]
  · rename_i hne
    split
    · rename_i hlt
      have hle : left ≤ right := List.le_of_lt hlt
      simp [hle]
    · rename_i hnot
      have hle : ¬left ≤ right :=
        fun hle => hne (List.le_antisymm hle (List.not_lt.mp hnot))
      simp [hle]

/-- Trimming leaves no white space at either end. -/
theorem trim_trim (text : JsString) : trim (trim text) = trim text := by
  have htrim : ∀ units, trim units =
      (units.dropWhile isWhiteSpace).rdropWhile isWhiteSpace := fun _ => rfl
  have hfront : (trim text).dropWhile isWhiteSpace = trim text := by
    rw [List.dropWhile_eq_self_iff]
    intro hpos
    have htrim : trim text <+: text.dropWhile isWhiteSpace :=
      List.rdropWhile_prefix _ _
    have hlength := Nat.lt_of_lt_of_le hpos htrim.length_le
    rw [htrim.getElem hpos]
    exact List.dropWhile_get_zero_not _ _ hlength
  rw [htrim (trim text), hfront, htrim text]
  exact List.rdropWhile_idempotent _ _

/-- A text is trimmed if and only if neither end of it is white space. -/
theorem trim_eq_self_iff {text : JsString} : trim text = text ↔
    text.head?.any isWhiteSpace = false ∧
      text.getLast?.any isWhiteSpace = false := by
  have hfront : text.dropWhile isWhiteSpace = text ↔
      text.head?.any isWhiteSpace = false := by
    cases text with
    | nil => simp
    | cons unit rest => simp [List.dropWhile_eq_self_iff]
  have hback : text.rdropWhile isWhiteSpace = text ↔
      text.getLast?.any isWhiteSpace = false := by
    by_cases hnil : text = []
    · simp [hnil]
    · simp [List.rdropWhile_eq_self_iff, hnil, List.getLast?_eq_some_getLast hnil]
  have htrim : trim text =
      (text.dropWhile isWhiteSpace).rdropWhile isWhiteSpace := rfl
  rw [← hfront, ← hback, htrim]
  constructor
  · intro h
    have hlength := (List.rdropWhile_prefix isWhiteSpace
      (text.dropWhile isWhiteSpace)).length_le
    rw [h] at hlength
    have hdrop : text.dropWhile isWhiteSpace = text :=
      (List.dropWhile_suffix isWhiteSpace).eq_of_length_le hlength
    rw [hdrop] at h
    exact ⟨hdrop, h⟩
  · rintro ⟨hdrop, hrdrop⟩
    rw [hdrop, hrdrop]

/-- The code unit that a PostgreSQL text value cannot hold. -/
def nul : UInt16 := 0

/-- NUL is not white space, so trimming keeps every one of them. -/
theorem nul_mem_trim_iff (text : JsString) : nul ∈ trim text ↔ nul ∈ text := by
  have hkeep : ∀ units : JsString, nul ∈ units.dropWhile isWhiteSpace ↔
      nul ∈ units := by
    intro units
    induction units with
    | nil => simp
    | cons unit rest ih =>
        by_cases hspace : isWhiteSpace unit = true
        · have hne : nul ≠ unit := by
            rintro rfl
            exact absurd hspace (by decide)
          simp [List.dropWhile, hspace, ih, hne]
        · simp [List.dropWhile, hspace]
  simp only [trim, List.mem_reverse, hkeep]

end StatementAnalyzer
