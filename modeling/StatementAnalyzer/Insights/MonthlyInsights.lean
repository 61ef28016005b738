/-
What the insights are made from, their schema, and the policy that an insight
names only what the report shows.
-/
import StatementAnalyzer.Analytics.MonthlyAnalytics
import StatementAnalyzer.Js.Schema

namespace StatementAnalyzer

inductive InsightSeverity where
  | info
  | warning
deriving DecidableEq, Repr

/-- The fields of `insightTextSchema`. -/
structure InsightText where
  severity : InsightSeverity
  title : JsString
  description : JsString
deriving DecidableEq, Repr

inductive Insight where
  | categoryIncrease (text : InsightText) (category : JsString)
  | merchantIncrease (text : InsightText) (merchant : JsString)
  | notableSpending (text : InsightText) (category merchant : Option JsString)
deriving DecidableEq, Repr

structure InsightsDocument where
  insights : List Insight
deriving DecidableEq, Repr

structure CompactInsightsBucket where
  name : JsString
  amount : Int
  count : Int
  percentage : Option ℚ
  previousAmount : Option Int
  amountChangePercentage : Option ℚ
deriving DecidableEq, Repr

structure CompactInsightsTotals where
  totalAmount : Int
  transactionCount : Int
deriving DecidableEq, Repr

structure CompactInsightsCurrent extends CompactInsightsTotals where
  categories : List CompactInsightsBucket
  merchants : List CompactInsightsBucket
deriving DecidableEq, Repr

structure CompactInsightsInput where
  month : JsString
  current : CompactInsightsCurrent
  previous : Option CompactInsightsTotals
deriving DecidableEq, Repr

/-- `mapCategoryBucket` and `mapMerchantBucket`. -/
def mapBucket (bucket : MonthlyAnalyticsBucket) : CompactInsightsBucket where
  name := bucket.name
  amount := bucket.amount
  count := bucket.count
  percentage := bucket.percentage
  previousAmount := bucket.previousAmount
  amountChangePercentage := bucket.amountChangePercentage

def createCompactInsightsInput (analytics : MonthlyAnalyticsResponse) :
    CompactInsightsInput where
  month := decimalText analytics.year ++ js "-" ++ paddedText analytics.month
  current := {
    totalAmount := analytics.totalAmount
    transactionCount := analytics.transactionCount
    categories := analytics.categories.map mapBucket
    merchants := analytics.merchants.map mapBucket }
  previous := analytics.previousMonth.map fun previousMonth =>
    ⟨previousMonth.totalAmount, previousMonth.transactionCount⟩

def compareByName (left right : CompactInsightsBucket) : Int :=
  if left.name = right.name then 0
  else if left.name < right.name then -1
  else 1

/-- `[...buckets].sort(compareByName)`; the sort is stable. -/
def sortByName (buckets : List CompactInsightsBucket) :
    List CompactInsightsBucket :=
  buckets.insertionSort fun left right => compareByName left right ≤ 0

def canonicalizeInput (input : CompactInsightsInput) : CompactInsightsInput :=
  { input with
    current := { input.current with
      categories := sortByName input.current.categories
      merchants := sortByName input.current.merchants } }

/-- `digest` is the SHA-256 of the JSON text, in hexadecimal. -/
def getAnalyticsFingerprint (digest : CompactInsightsInput → JsString)
    (input : CompactInsightsInput) : JsString :=
  js "monthly-analytics-v1:" ++ digest (canonicalizeInput input)

/-- `z.string().trim().min(1).max(limit)`. -/
def boundedText (limit : Nat) (value : JsValue) : Option JsString := do
  let text ← value.string?
  let text := trim text
  if 1 ≤ codePointLength text && codePointLength text ≤ limit then return text
  else none

/-- The same with `.optional()`. -/
def optionalText (limit : Nat) : JsValue → Option (Option JsString)
  | .undefined => some none
  | value => (boundedText limit value).map some

def severitySchema (value : JsValue) : Option InsightSeverity := do
  let text ← value.string?
  if text = js "info" then return .info
  else if text = js "warning" then return .warning
  else none

def insightTextKeys : List JsString :=
  [js "type", js "severity", js "title", js "description"]

/-- The literal `type` and the fields of `insightTextSchema`. -/
def insightTextSchema (literal : JsString)
    (properties : List (JsString × JsValue)) : Option InsightText := do
  let field := fun name => JsValue.property properties (js name)
  let type ← (field "type").string?
  let severity ← severitySchema (field "severity")
  let title ← boundedText 80 (field "title")
  let description ← boundedText 300 (field "description")
  if type = literal then return ⟨severity, title, description⟩ else none

def categoryIncreaseSchema (value : JsValue) : Option Insight := do
  let properties ← value.strictObject? (insightTextKeys ++ [js "category"])
  let text ← insightTextSchema (js "CATEGORY_INCREASE") properties
  let category ←
    boundedText 100 (JsValue.property properties (js "category"))
  return .categoryIncrease text category

def merchantIncreaseSchema (value : JsValue) : Option Insight := do
  let properties ← value.strictObject? (insightTextKeys ++ [js "merchant"])
  let text ← insightTextSchema (js "MERCHANT_INCREASE") properties
  let merchant ←
    boundedText 100 (JsValue.property properties (js "merchant"))
  return .merchantIncrease text merchant

def notableSpendingSchema (value : JsValue) : Option Insight := do
  let properties ← value.strictObject?
    (insightTextKeys ++ [js "category", js "merchant"])
  let text ← insightTextSchema (js "NOTABLE_SPENDING") properties
  let category ←
    optionalText 100 (JsValue.property properties (js "category"))
  let merchant ←
    optionalText 100 (JsValue.property properties (js "merchant"))
  if category.isSome || merchant.isSome then
    return .notableSpending text category merchant
  else none

/-- `z.union`: the first schema that takes the value. -/
def insightSchema (value : JsValue) : Option Insight :=
  (categoryIncreaseSchema value).orElse fun _ =>
    (merchantIncreaseSchema value).orElse fun _ => notableSpendingSchema value

def insightsDocumentSchema (value : JsValue) : Option InsightsDocument := do
  let properties ← value.strictObject? [js "insights"]
  let items ← (JsValue.property properties (js "insights")).array?
  if items.length ≤ 5 then
    let insights ← parseAll insightSchema items
    return ⟨insights⟩
  else none

def categoryNames (input : CompactInsightsInput) : List JsString :=
  input.current.categories.map CompactInsightsBucket.name

def merchantNames (input : CompactInsightsInput) : List JsString :=
  input.current.merchants.map CompactInsightsBucket.name

def hasIncrease (buckets : List CompactInsightsBucket) (name : JsString) :
    Bool :=
  (buckets.find? fun candidate => candidate.name = name).any fun bucket =>
    bucket.previousAmount.isSome && bucket.amountChangePercentage.any (0 < ·)

/-- The checks of `parseAndValidateInsights` on one insight. -/
def insightAllowed (input : CompactInsightsInput) : Insight → Bool
  | .categoryIncrease _ category =>
      input.previous.isSome && (categoryNames input).contains category &&
        hasIncrease input.current.categories category
  | .merchantIncrease _ merchant =>
      input.previous.isSome && (merchantNames input).contains merchant &&
        hasIncrease input.current.merchants merchant
  | .notableSpending _ category merchant =>
      category.all (categoryNames input).contains &&
        merchant.all (merchantNames input).contains

def parseAndValidateInsights (raw : JsValue) (input : CompactInsightsInput) :
    Except Thrown InsightsDocument :=
  match insightsDocumentSchema raw with
  | none => .error invalidInsightsResponseError
  | some parsed =>
      if parsed.insights.all (insightAllowed input) then .ok parsed
      else .error invalidInsightsResponseError

end StatementAnalyzer
