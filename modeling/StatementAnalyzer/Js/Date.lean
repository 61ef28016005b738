/-
`Date.prototype.toISOString`: a time value in days, hours, minutes, seconds and
milliseconds of the proleptic Gregorian calendar.
-/
import StatementAnalyzer.Js.Text

namespace StatementAnalyzer

/-- A valid date, in milliseconds since the beginning of 1970. -/
structure TimeValue where
  time : Int
  bound : time.natAbs ≤ 8640000000000000
deriving DecidableEq, Repr

/-- `DayFromYear`. -/
def dayFromYear (year : Int) : Int :=
  365 * (year - 1970) + (year - 1969) / 4 - (year - 1901) / 100 +
    (year - 1601) / 400

/-- `YearFromTime`, from the day. -/
def yearFromDay (day : Int) : Int :=
  let guess := 1970 + day * 400 / 146097
  if day < dayFromYear guess then guess - 1
  else if dayFromYear (guess + 1) ≤ day then guess + 1
  else guess

def monthLengths (year : Int) : List Int :=
  let february := dayFromYear (year + 1) - dayFromYear year - 337
  [31, february, 31, 30, 31, 30, 31, 31, 30, 31, 30, 31]

/-- The month and the day of the month, from the day of the year. -/
def monthAndDate (month day : Int) : List Int → Int × Int
  | [] => (month, day + 1)
  | length :: rest =>
      if day < length then (month, day + 1)
      else monthAndDate (month + 1) (day - length) rest

/-- The last `width` digits of a number. -/
def paddedDigits : Nat → Int → JsString
  | 0, _ => []
  | width + 1, n => paddedDigits width (n / 10) ++ [(0x30 + n % 10).toNat.toUInt16]

/-- Four digits, or a sign and six. -/
def yearText (year : Int) : JsString :=
  if 0 ≤ year ∧ year ≤ 9999 then paddedDigits 4 year
  else if year < 0 then js "-" ++ paddedDigits 6 (-year)
  else js "+" ++ paddedDigits 6 year

def TimeValue.toISOString (value : TimeValue) : JsString :=
  let day := value.time / 86400000
  let year := yearFromDay day
  let monthDate :=
    monthAndDate 1 (day - dayFromYear year) (monthLengths year)
  let timeInDay := value.time % 86400000
  yearText year ++ js "-" ++ paddedDigits 2 monthDate.1 ++ js "-" ++
    paddedDigits 2 monthDate.2 ++ js "T" ++ paddedDigits 2 (timeInDay / 3600000) ++
    js ":" ++ paddedDigits 2 (timeInDay / 60000 % 60) ++ js ":" ++
    paddedDigits 2 (timeInDay / 1000 % 60) ++ js "." ++
    paddedDigits 3 (timeInDay % 1000) ++ js "Z"

example : TimeValue.toISOString ⟨1790294400000, by decide⟩ =
    js "2026-09-25T00:00:00.000Z" := by decide

example : TimeValue.toISOString ⟨-62198755200001, by decide⟩ =
    js "-000002-12-31T23:59:59.999Z" := by decide

/-- A year has 365.2425 days on average, and no year is far from it. -/
theorem dayFromYear_bounds (year : Int) :
    146097 * (year - 1970) - 506 ≤ 400 * dayFromYear year ∧
      400 * dayFromYear year ≤ 146097 * (year - 1970) + 589 := by
  rw [dayFromYear]
  omega

/-- The year is the one that the day falls into. -/
theorem yearFromDay_spec (day : Int) :
    dayFromYear (yearFromDay day) ≤ day ∧
      day < dayFromYear (yearFromDay day + 1) := by
  simp only [yearFromDay]
  split
  · rename_i hlt
    have hbounds := dayFromYear_bounds (1970 + day * 400 / 146097 - 1)
    rw [Int.sub_add_cancel]
    exact ⟨by omega, hlt⟩
  · split
    · rename_i hle
      have hbounds := dayFromYear_bounds (1970 + day * 400 / 146097 + 1 + 1)
      exact ⟨hle, by omega⟩
    · rename_i hle hlt
      exact ⟨Int.not_lt.mp hle, Int.not_le.mp hlt⟩

/-- Only visible ASCII characters. -/
def Visible (text : JsString) : Prop :=
  ∀ unit ∈ text, 0x20 < unit.toNat ∧ unit.toNat < 0x7F

theorem Visible.append {text text' : JsString} (h : Visible text)
    (h' : Visible text') : Visible (text ++ text') :=
  List.forall_mem_append.mpr ⟨h, h'⟩

theorem length_paddedDigits (width : Nat) (n : Int) :
    (paddedDigits width n).length = width := by
  induction width generalizing n with
  | zero => rfl
  | succ width ih => simp [paddedDigits, ih]

theorem visible_paddedDigits (width : Nat) (n : Int) :
    Visible (paddedDigits width n) := by
  induction width generalizing n with
  | zero => simp [paddedDigits, Visible]
  | succ width ih =>
      apply (ih (n / 10)).append
      intro unit hunit
      have hdigit : (0x30 + n % 10).toNat < 65536 := by omega
      rw [List.mem_singleton.mp hunit]
      simp only [Nat.toUInt16_eq, UInt16.toNat_ofNat', Nat.mod_eq_of_lt hdigit]
      omega

theorem visible_yearText (year : Int) : Visible (yearText year) := by
  have hminus : Visible (js "-") := by simp [Visible, js, utf16]
  have hplus : Visible (js "+") := by simp [Visible, js, utf16]
  rw [yearText]
  split
  · exact visible_paddedDigits 4 year
  · split
    · exact hminus.append (visible_paddedDigits 6 _)
    · exact hplus.append (visible_paddedDigits 6 _)

theorem length_yearText_le (year : Int) : (yearText year).length ≤ 7 := by
  have hminus : (js "-").length = 1 := by decide
  have hplus : (js "+").length = 1 := by decide
  rw [yearText]
  split
  · rw [length_paddedDigits]
    omega
  · split
    · rw [List.length_append, length_paddedDigits, hminus]
    · rw [List.length_append, length_paddedDigits, hplus]

theorem visible_toISOString (value : TimeValue) :
    Visible value.toISOString := by
  have hmark : ∀ text ∈ [js "-", js "T", js ":", js ".", js "Z"],
      Visible text := by
    simp [Visible, js, utf16]
  rw [TimeValue.toISOString]
  repeat apply Visible.append
  · exact visible_yearText _
  all_goals first | exact visible_paddedDigits _ _ | exact hmark _ (by simp)

theorem length_toISOString_le (value : TimeValue) :
    value.toISOString.length ≤ 27 := by
  have hyear := length_yearText_le (yearFromDay (value.time / 86400000))
  have hmark : (js "-").length = 1 ∧ (js "T").length = 1 ∧
      (js ":").length = 1 ∧ (js ".").length = 1 ∧ (js "Z").length = 1 := by
    decide
  simp only [TimeValue.toISOString, List.length_append, length_paddedDigits,
    hmark]
  omega

end StatementAnalyzer
