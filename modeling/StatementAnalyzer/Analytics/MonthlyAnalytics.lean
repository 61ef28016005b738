/-
The monthly report: date ranges, percentages, and the current month compared
with the previous one.  Amounts and counts are integers that are numbers.
-/
import StatementAnalyzer.Errors
import StatementAnalyzer.Js.Double
import Mathlib.Data.List.Sort

namespace StatementAnalyzer

/-- `start` and `end`. -/
structure AnalyticsDateRange where
  start : JsString
  endDate : JsString
deriving DecidableEq, Repr

structure MonthlyAnalyticsRanges where
  current : AnalyticsDateRange
  previous : AnalyticsDateRange
deriving DecidableEq, Repr

structure AnalyticsAggregateBucket where
  name : JsString
  amount : Int
  count : Int
deriving DecidableEq, Repr

structure MonthlyAnalyticsAggregate where
  totalAmount : Int
  transactionCount : Int
  categories : List AnalyticsAggregateBucket
  merchants : List AnalyticsAggregateBucket
deriving DecidableEq, Repr

structure MonthlyAnalyticsAggregates where
  current : MonthlyAnalyticsAggregate
  previous : MonthlyAnalyticsAggregate
deriving DecidableEq, Repr

/-- A category or a merchant of the report, under `category` or `merchant`. -/
structure MonthlyAnalyticsBucket where
  name : JsString
  amount : Int
  count : Int
  percentage : Option ℚ
  previousAmount : Option Int
  amountChangePercentage : Option ℚ
deriving DecidableEq, Repr

structure PreviousMonth where
  totalAmount : Int
  transactionCount : Int
  amountChangePercentage : Option ℚ
  transactionCountChangePercentage : Option ℚ
deriving DecidableEq, Repr

structure MonthlyAnalyticsResponse where
  year : Int
  month : Int
  totalAmount : Int
  transactionCount : Int
  previousMonth : Option PreviousMonth
  categories : List MonthlyAnalyticsBucket
  merchants : List MonthlyAnalyticsBucket
deriving DecidableEq, Repr

/-- `String(n)`. -/
def decimalText (n : Int) : JsString :=
  js (toString n)

/-- `String(n).padStart(2, "0")`. -/
def paddedText (n : Int) : JsString :=
  let text := decimalText n
  List.replicate (2 - text.length) 0x30 ++ text

def formatMonthStart (year month : Int) : JsString :=
  decimalText year ++ js "-" ++ paddedText month ++ js "-01"

/-- The year and the month; `year` is positive wherever it is called. -/
def shiftMonth (year month offset : Int) : Int × Int :=
  let monthIndex := year * 12 + month - 1 + offset
  (monthIndex / 12, monthIndex % 12 + 1)

/-- On integers; any other number is refused as well. -/
def getMonthlyAnalyticsRanges (year month : Int) :
    Except Thrown MonthlyAnalyticsRanges :=
  if year < 1 ∨ month < 1 ∨ 12 < month then .error plainError
  else
    let next := shiftMonth year month 1
    let previous := shiftMonth year month (-1)
    .ok {
      current := ⟨formatMonthStart year month,
        formatMonthStart next.1 next.2⟩
      previous := ⟨formatMonthStart previous.1 previous.2,
        formatMonthStart year month⟩ }

example : getMonthlyAnalyticsRanges 2026 1 =
    .ok ⟨⟨js "2026-01-01", js "2026-02-01"⟩,
      ⟨js "2025-12-01", js "2026-01-01"⟩⟩ := by decide

/-- `Number(value.toFixed(1))` of a finite number: its exact value is rounded to
tenths, halves away from zero, and the text of the tenths is read. -/
def roundToOneDecimal (value : ℚ) : ℚ :=
  if 10 ^ 21 ≤ |value| then value
  else if value < 0 then -nearestDouble (⌊-value * 10 + 1 / 2⌋ / 10)
  else nearestDouble (⌊value * 10 + 1 / 2⌋ / 10)

/-- `(part / whole) * 100`; the quotient and the product are numbers. -/
def percentOf (part whole : ℚ) : ℚ :=
  nearestDouble (nearestDouble (part / whole) * 100)

def percentage (amount totalAmount : Int) : Option ℚ :=
  if totalAmount = 0 then none
  else some (roundToOneDecimal (percentOf amount totalAmount))

def changePercentage (current previous : Int) : Option ℚ :=
  if previous = 0 then none
  else
    let difference := nearestDouble ((current - previous : Int) : ℚ)
    some (roundToOneDecimal (percentOf difference (|previous| : Int)))

-- 28.75 as a fraction, a little less as a number
example : percentage 23 80 = some (nearestDouble (287 / 10)) ∧
    changePercentage 103 80 = some (nearestDouble (287 / 10)) := by
  decide +kernel

def compareBuckets (left right : AnalyticsAggregateBucket) : Int :=
  if left.amount ≠ right.amount then right.amount - left.amount
  else if left.name = right.name then 0
  else if left.name < right.name then -1
  else 1

/-- `[...buckets].sort(compareBuckets)`; the sort is stable. -/
def sortBuckets (buckets : List AnalyticsAggregateBucket) :
    List AnalyticsAggregateBucket :=
  buckets.insertionSort fun left right => compareBuckets left right ≤ 0

/-- `new Map(..).get(name)`: among equal names the last one wins. -/
def previousByName (buckets : List AnalyticsAggregateBucket) (name : JsString) :
    Option AnalyticsAggregateBucket :=
  buckets.reverse.find? fun bucket => bucket.name = name

/-- The buckets of one list of the current month next to the same list of the
previous month. -/
def buildResponse (buckets previousBuckets : List AnalyticsAggregateBucket)
    (totalAmount : Int) : List MonthlyAnalyticsBucket :=
  (sortBuckets buckets).map fun bucket =>
    let previousBucket := previousByName previousBuckets bucket.name
    { name := bucket.name
      amount := bucket.amount
      count := bucket.count
      percentage := percentage bucket.amount totalAmount
      previousAmount := previousBucket.map AnalyticsAggregateBucket.amount
      amountChangePercentage := previousBucket.bind fun previousBucket =>
        changePercentage bucket.amount previousBucket.amount }

def buildCategoryResponse (current previous : MonthlyAnalyticsAggregate) :
    List MonthlyAnalyticsBucket :=
  buildResponse current.categories previous.categories current.totalAmount

def buildMerchantResponse (current previous : MonthlyAnalyticsAggregate) :
    List MonthlyAnalyticsBucket :=
  buildResponse current.merchants previous.merchants current.totalAmount

def buildMonthlyAnalytics (year month : Int)
    (current previous : MonthlyAnalyticsAggregate) :
    MonthlyAnalyticsResponse where
  year := year
  month := month
  totalAmount := current.totalAmount
  transactionCount := current.transactionCount
  previousMonth :=
    if previous.transactionCount = 0 then none
    else some {
      totalAmount := previous.totalAmount
      transactionCount := previous.transactionCount
      amountChangePercentage :=
        changePercentage current.totalAmount previous.totalAmount
      transactionCountChangePercentage :=
        changePercentage current.transactionCount previous.transactionCount }
  categories := buildCategoryResponse current previous
  merchants := buildMerchantResponse current previous

/-- Rounding keeps the sign, or loses the value. -/
theorem roundToOneDecimal_pos {value : ℚ} (h : 0 < roundToOneDecimal value) :
    0 < value := by
  by_contra hle
  rw [roundToOneDecimal] at h
  split at h
  · exact hle h
  split at h
  · rename_i hneg
    have hfloor : (0 : ℤ) ≤ ⌊-value * 10 + 1 / 2⌋ := by
      apply Int.floor_nonneg.mpr
      linarith
    have hcast : (0 : ℚ) ≤ (⌊-value * 10 + 1 / 2⌋ : ℤ) := by exact_mod_cast hfloor
    have hnonneg := nearestDouble_nonneg
      (div_nonneg hcast (by norm_num : (0 : ℚ) ≤ 10))
    linarith
  · have hzero : value = 0 := by linarith
    subst hzero
    norm_num at h

theorem percentOf_pos {part whole : ℚ} (hwhole : 0 < whole)
    (h : 0 < percentOf part whole) : 0 < part := by
  have hproduct := pos_of_nearestDouble_pos h
  have hquotient := pos_of_nearestDouble_pos
    (by linarith : 0 < nearestDouble (part / whole))
  exact (div_pos_iff_of_pos_right hwhole).mp hquotient

/-- A positive change means that the amount has grown from a non-zero one. -/
theorem changePercentage_pos {current previous : Int} {change : ℚ}
    (h : changePercentage current previous = some change) (hpos : 0 < change) :
    previous ≠ 0 ∧ previous < current := by
  rw [changePercentage] at h
  split at h
  · cases h
  · rename_i hzero
    cases h
    have habs : (0 : ℚ) < (|previous| : Int) := by
      exact_mod_cast abs_pos.mpr hzero
    have hrounded := percentOf_pos habs (roundToOneDecimal_pos hpos)
    have hdifference := pos_of_nearestDouble_pos hrounded
    have hlt : 0 < current - previous := by exact_mod_cast hdifference
    exact ⟨hzero, by omega⟩

section Buckets

variable {buckets previousBuckets : List AnalyticsAggregateBucket}

theorem mem_sortBuckets {bucket : AnalyticsAggregateBucket} :
    bucket ∈ sortBuckets buckets ↔ bucket ∈ buckets :=
  List.mem_insertionSort _

theorem previousByName_eq_some {name : JsString}
    {bucket : AnalyticsAggregateBucket}
    (h : previousByName buckets name = some bucket) :
    bucket ∈ buckets ∧ bucket.name = name := by
  have hname := List.find?_some h
  have hmem := List.mem_of_find?_eq_some h
  exact ⟨List.mem_reverse.mp hmem, of_decide_eq_true hname⟩

/-- Where a bucket of the report comes from. -/
theorem mem_buildResponse {totalAmount : Int} {bucket : MonthlyAnalyticsBucket}
    (h : bucket ∈ buildResponse buckets previousBuckets totalAmount) :
    ∃ current ∈ buckets, current.name = bucket.name ∧
      current.amount = bucket.amount ∧
      ∀ change, bucket.amountChangePercentage = some change → 0 < change →
        ∃ previous ∈ previousBuckets, previous.name = bucket.name ∧
          previous.amount ≠ 0 ∧ previous.amount < bucket.amount := by
  obtain ⟨current, hmem, rfl⟩ := List.mem_map.mp h
  refine ⟨current, mem_sortBuckets.mp hmem, rfl, rfl, ?_⟩
  intro change hchange hpos
  obtain ⟨previous, hprevious, hchange⟩ := Option.bind_eq_some_iff.mp hchange
  obtain ⟨hmem', hname⟩ := previousByName_eq_some hprevious
  exact ⟨previous, hmem', hname, changePercentage_pos hchange hpos⟩

end Buckets

end StatementAnalyzer
