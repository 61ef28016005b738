/-
The column types and the constraints of the two tables, as far as a value can
violate them.
-/
import StatementAnalyzer.Js.CodePoints

namespace StatementAnalyzer

/-- A `text` value cannot contain U+0000. -/
def textCheck (text : JsString) : Bool :=
  nul ∉ text

def integerRange (n : Int) : Bool :=
  -2147483648 ≤ n && n ≤ 2147483647

def bigintRange (n : Int) : Bool :=
  -9223372036854775808 ≤ n && n ≤ 9223372036854775807

def isDigit (unit : UInt16) : Bool :=
  0x30 ≤ unit && unit ≤ 0x39

def digitValue (unit : UInt16) : Nat :=
  unit.toNat - 0x30

/-- The number a sequence of digits denotes. -/
def digitsValue (units : JsString) : Nat :=
  units.foldl (fun value unit => 10 * value + digitValue unit) 0

/-- Year, month and day of a text of the form `YYYY-MM-DD`, the only form in
which the service writes dates. -/
def dateParts : JsString → Option (Nat × Nat × Nat)
  | [y₁, y₂, y₃, y₄, 0x2D, m₁, m₂, 0x2D, d₁, d₂] =>
      if [y₁, y₂, y₃, y₄, m₁, m₂, d₁, d₂].all isDigit then
        some (digitsValue [y₁, y₂, y₃, y₄], digitsValue [m₁, m₂],
          digitsValue [d₁, d₂])
      else none
  | _ => none

def isLeapYear (year : Nat) : Bool :=
  year % 4 = 0 && (year % 100 ≠ 0 || year % 400 = 0)

def daysInMonth (year : Nat) : Nat → Nat
  | 2 => if isLeapYear year then 29 else 28
  | 4 | 6 | 9 | 11 => 30
  | _ => 31

/-- A day of the calendar; PostgreSQL has no year zero. -/
def isCalendarDay (year month day : Nat) : Bool :=
  1 ≤ year && 1 ≤ month && month ≤ 12 && 1 ≤ day &&
    day ≤ daysInMonth year month

/-- A `date` value must be a real calendar date. -/
def dateCheck (text : JsString) : Bool :=
  (dateParts text).any fun (year, month, day) => isCalendarDay year month day

example : dateCheck (js "2024-02-29") = true ∧
    dateCheck (js "2023-02-29") = false := by decide

end StatementAnalyzer
