/-
The months of the calendar: how the first day of a month is written, and which
days lie between two of them.
-/
import StatementAnalyzer.Analytics.MonthlyAnalytics
import StatementAnalyzer.Database.Columns

namespace StatementAnalyzer

section Digits

/-- The code unit of a decimal digit. -/
def digitUnit (n : Nat) : UInt16 :=
  (0x30 + n).toUInt16

theorem utf16_digitChar : ∀ n < 10, utf16 (Nat.digitChar n) = [digitUnit n] := by
  decide

theorem isDigit_digitUnit : ∀ n < 10, isDigit (digitUnit n) = true := by decide

theorem digitValue_digitUnit : ∀ n < 10, digitValue (digitUnit n) = n := by decide

theorem decimalText_digit {n : Nat} (h : n < 10) :
    decimalText n = [digitUnit n] := by
  change js (Nat.repr n) = _
  rw [Nat.repr_of_lt h]
  simp [js, utf16_digitChar n h]

theorem decimalText_append {n : Nat} (h : 10 ≤ n) :
    decimalText n = decimalText (n / 10 : Nat) ++ [digitUnit (n % 10)] := by
  change js (Nat.repr n) = js (Nat.repr (n / 10)) ++ _
  rw [Nat.repr_of_ge h]
  simp [js, utf16_digitChar (n % 10) (by omega)]

theorem decimalText_year {year : Nat} (h : 1000 ≤ year) (h' : year ≤ 9999) :
    decimalText year = [digitUnit (year / 1000), digitUnit (year / 100 % 10),
      digitUnit (year / 10 % 10), digitUnit (year % 10)] := by
  rw [decimalText_append (by omega), decimalText_append (by omega),
    decimalText_append (by omega), decimalText_digit (by omega)]
  simp only [Nat.div_div_eq_div_mul]
  rfl

theorem paddedText_month {month : Nat} (h : month ≤ 99) :
    paddedText month = [digitUnit (month / 10), digitUnit (month % 10)] := by
  by_cases hmonth : month < 10
  · rw [paddedText, decimalText_digit hmonth]
    have hzero : month / 10 = 0 := by omega
    have hsame : month % 10 = month := by omega
    rw [hzero, hsame]
    rfl
  · rw [paddedText, decimalText_append (by omega), decimalText_digit (by omega)]
    rfl

/-- The first day of a month is read back as it was written. -/
theorem dateParts_formatMonthStart {year month : Nat} (h : 1000 ≤ year)
    (h' : year ≤ 9999) (hmonth : month ≤ 99) :
    dateParts (formatMonthStart year month) = some (year, month, 1) := by
  have hyears : digitsValue [digitUnit (year / 1000),
      digitUnit (year / 100 % 10), digitUnit (year / 10 % 10),
      digitUnit (year % 10)] = year := by
    simp only [digitsValue, List.foldl]
    rw [digitValue_digitUnit _ (by omega), digitValue_digitUnit _ (by omega),
      digitValue_digitUnit _ (by omega), digitValue_digitUnit _ (by omega)]
    omega
  have hmonths : digitsValue [digitUnit (month / 10), digitUnit (month % 10)] =
      month := by
    simp only [digitsValue, List.foldl]
    rw [digitValue_digitUnit _ (by omega), digitValue_digitUnit _ (by omega)]
    omega
  rw [formatMonthStart, decimalText_year h h', paddedText_month hmonth]
  change (if _ then _ else none) = _
  rw [hyears, hmonths, if_pos]
  · rfl
  · simp [isDigit_digitUnit _ (show year / 1000 < 10 by omega),
      isDigit_digitUnit _ (show year / 100 % 10 < 10 by omega),
      isDigit_digitUnit _ (show year / 10 % 10 < 10 by omega),
      isDigit_digitUnit _ (show year % 10 < 10 by omega),
      isDigit_digitUnit _ (show month / 10 < 10 by omega),
      isDigit_digitUnit _ (show month % 10 < 10 by omega)]
    decide

end Digits

/-- Year, month and day of a `date`. -/
abbrev CalendarDay := Nat × Nat × Nat

namespace CalendarDay

def before : CalendarDay → CalendarDay → Bool
  | (year, month, day), (year', month', day') =>
      year < year' || (year = year' &&
        (month < month' || (month = month' && day < day')))

/-- The half-open interval of days. -/
def within (day first last : CalendarDay) : Bool :=
  !day.before first && day.before last

/-- Months, counted from the beginning of year zero. -/
def monthIndex : CalendarDay → Nat
  | (year, month, _) => 12 * year + (month - 1)

end CalendarDay

/-- The first day of the month with this index. -/
def monthStart (index : Nat) : CalendarDay :=
  (index / 12, index % 12 + 1, 1)

/-- The same day, as the service writes it. -/
def monthStartText (index : Nat) : JsString :=
  formatMonthStart (index / 12 : Nat) (index % 12 + 1 : Nat)

/-- A day comes before a month if its own month does. -/
theorem before_monthStart_iff {index : Nat} {day : CalendarDay}
    (hday : isCalendarDay day.1 day.2.1 day.2.2 = true) :
    day.before (monthStart index) = true ↔ day.monthIndex < index := by
  obtain ⟨year, month, day⟩ := day
  simp only [isCalendarDay, Bool.and_eq_true, decide_eq_true_eq] at hday
  obtain ⟨⟨⟨⟨_, hmonth⟩, hmonth'⟩, hone⟩, _⟩ := hday
  unfold monthStart CalendarDay.before CalendarDay.monthIndex
  simp only [Bool.or_eq_true, Bool.and_eq_true, decide_eq_true_eq]
  omega

/-- Between the starts of two months lie the days of the months in between,
however many days those have. -/
theorem within_monthStart_iff (first last : Nat) {day : CalendarDay}
    (hday : isCalendarDay day.1 day.2.1 day.2.2 = true) :
    day.within (monthStart first) (monthStart last) = true ↔
      first ≤ day.monthIndex ∧ day.monthIndex < last := by
  rw [CalendarDay.within, Bool.and_eq_true, before_monthStart_iff hday,
    Bool.not_eq_true', Bool.eq_false_iff, Ne, before_monthStart_iff hday,
    not_lt]

theorem isCalendarDay_monthStart (index : Nat) (h : 12 ≤ index) :
    isCalendarDay (monthStart index).1 (monthStart index).2.1
      (monthStart index).2.2 = true := by
  have hyear : 1 ≤ index / 12 := by omega
  have hmonth : index % 12 + 1 ≤ 12 := by omega
  have hlast : ∀ month, 1 ≤ daysInMonth (index / 12) month := by
    intro month
    unfold daysInMonth
    split
    · split <;> decide
    all_goals decide
  simp [isCalendarDay, monthStart, hyear, hmonth, hlast]

theorem dateParts_monthStartText {index : Nat} (h : 12000 ≤ index)
    (h' : index < 120000) :
    dateParts (monthStartText index) = some (monthStart index) :=
  dateParts_formatMonthStart (by omega) (by omega) (by omega)

section Ranges

variable {year month : Nat}

/-- Both ranges of a month, by index. -/
theorem getMonthlyAnalyticsRanges_eq {index : Nat} (hyear : 1 ≤ year)
    (hmonth : 1 ≤ month) (hmonth' : month ≤ 12)
    (hindex : index + 1 = 12 * year + (month - 1)) :
    getMonthlyAnalyticsRanges year month = .ok
      ⟨⟨monthStartText (index + 1), monthStartText (index + 2)⟩,
        ⟨monthStartText index, monthStartText (index + 1)⟩⟩ := by
  have hrefuses : ¬((year : Int) < 1 ∨ (month : Int) < 1 ∨ 12 < (month : Int)) := by
    omega
  have hthis : formatMonthStart year month = monthStartText (index + 1) := by
    rw [monthStartText]
    congr 2 <;> omega
  have hnext : shiftMonth year month 1 =
      ((((index + 2) / 12 : Nat) : Int), (((index + 2) % 12 + 1 : Nat) : Int)) := by
    simp only [shiftMonth, Prod.mk.injEq]
    omega
  have hprevious : shiftMonth year month (-1) =
      (((index / 12 : Nat) : Int), ((index % 12 + 1 : Nat) : Int)) := by
    simp only [shiftMonth, Prod.mk.injEq]
    omega
  rw [getMonthlyAnalyticsRanges, if_neg hrefuses, hthis, hnext, hprevious]
  rfl

end Ranges

end StatementAnalyzer
