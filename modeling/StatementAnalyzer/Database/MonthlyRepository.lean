/-
The queries of the API process, and the methods of `StatementRepository` that
check out a client of its pool.
-/
import StatementAnalyzer.Async.Traces
import StatementAnalyzer.Insights.MonthlyInsights
import StatementAnalyzer.Service.Interface

namespace StatementAnalyzer

open Async

/-- A `Date`, in milliseconds; an invalid one denotes no time. -/
abbrev JsDate := Option Int

structure AnalyticsOverviewDatabaseRow where
  totalAmount : Int
  transactionCount : Nat

/-- The columns are texts of integers; `count` comes from COUNT(*). -/
structure AnalyticsBucketDatabaseRow where
  name : JsString
  amount : Int
  count : Nat

structure MonthlyInsightsCacheLookup where
  targetMonth : JsString
  analyticsVersion : JsString
  modelId : JsString
  promptVersion : JsString
deriving DecidableEq, Repr

structure MonthlyInsightsCacheRecord extends MonthlyInsightsCacheLookup where
  insights : JsValue
  generatedAt : JsDate

structure SaveMonthlyInsightsInput extends MonthlyInsightsCacheLookup where
  insights : InsightsDocument
  generatedAt : JsDate
deriving DecidableEq, Repr

/-- The queries that are sent over a checked-out client. -/
inductive ApiClientQuery where
  | begin
  | beginRepeatableRead
  | selectOverview (range : AnalyticsDateRange)
  | selectCategories (range : AnalyticsDateRange)
  | selectMerchants (range : AnalyticsDateRange)
  | advisoryLock (lockKey : JsString)
  | selectMonthlyInsights (lookup : MonthlyInsightsCacheLookup)
  | upsertMonthlyInsights (input : SaveMonthlyInsightsInput)
  | commit
  | rollback

abbrev ApiClientQuery.Answer : ApiClientQuery → Type
  | selectOverview _ => List AnalyticsOverviewDatabaseRow
  | selectCategories _ => List AnalyticsBucketDatabaseRow
  | selectMerchants _ => List AnalyticsBucketDatabaseRow
  | selectMonthlyInsights _ => List MonthlyInsightsCacheRecord
  | _ => Unit

/-- What a request of the API awaits.  `analyze` answers the `insights` of the
analyzer's result, and `release` tells whether it is called with an error. -/
inductive ApiQuery where
  | request (r : Request)
  | connect
  | client (q : ApiClientQuery)
  | release (destroy : Bool)
  | analyze (input : CompactInsightsInput)
  | now

abbrev ApiQuery.Answer : ApiQuery → Type
  | request r => r.Answer
  | connect => Unit
  | client q => q.Answer
  | release _ => Unit
  | analyze _ => JsValue
  | now => JsDate

/-- A procedure of the API. -/
abbrev ApiProgram : Type → Type := Proc ApiQuery ApiQuery.Answer Thrown

abbrev ApiTrace := List (Answered ApiQuery ApiQuery.Answer Thrown)

/-- Await one query of a checked-out client. -/
def clientQuery (q : ApiClientQuery) : ApiProgram q.Answer :=
  Proc.call (ApiQuery.client q)

/-- Await the check-out of a client. -/
def connect : ApiProgram Unit :=
  Proc.call ApiQuery.connect

/-- `release()`, or `release(error)`. -/
def release (destroy : Bool) : ApiProgram Unit :=
  Proc.call (ApiQuery.release destroy)

def mapAnalyticsInteger (value : Int) : Except Thrown Int :=
  if value.natAbs ≤ 9007199254740991 then .ok value else .error plainError

def mapAnalyticsBucket (row : AnalyticsBucketDatabaseRow) :
    Except Thrown AnalyticsAggregateBucket := do
  let amount ← mapAnalyticsInteger row.amount
  let count ← mapAnalyticsInteger row.count
  return ⟨row.name, amount, count⟩

/-- `rows.map(mapAnalyticsBucket)`, which the first bad row ends. -/
def mapAnalyticsBuckets : List AnalyticsBucketDatabaseRow →
    Except Thrown (List AnalyticsAggregateBucket)
  | [] => .ok []
  | row :: rest => do
      let bucket ← mapAnalyticsBucket row
      let buckets ← mapAnalyticsBuckets rest
      return bucket :: buckets

/-- The object of aggregates, made from the rows of the three queries. -/
def aggregateOfRows (overview : List AnalyticsOverviewDatabaseRow)
    (categories merchants : List AnalyticsBucketDatabaseRow) :
    Except Thrown MonthlyAnalyticsAggregate :=
  match overview with
  | [] => .error plainError
  | overviewRow :: _ => do
      let totalAmount ← mapAnalyticsInteger overviewRow.totalAmount
      let transactionCount ← mapAnalyticsInteger overviewRow.transactionCount
      let categories ← mapAnalyticsBuckets categories
      let merchants ← mapAnalyticsBuckets merchants
      return ⟨totalAmount, transactionCount, categories, merchants⟩

/-- What the callback under the generation lock works with. -/
structure MonthlyInsightsCacheSession where
  findMonthlyInsights : MonthlyInsightsCacheLookup →
    ApiProgram (Option MonthlyInsightsCacheRecord)
  saveMonthlyInsights : SaveMonthlyInsightsInput → ApiProgram Unit

namespace StatementRepository

def findMonthlyAggregate (range : AnalyticsDateRange) :
    ApiProgram MonthlyAnalyticsAggregate := do
  let overview ← clientQuery (.selectOverview range)
  let categories ← clientQuery (.selectCategories range)
  let merchants ← clientQuery (.selectMerchants range)
  Proc.settled (aggregateOfRows overview categories merchants)

theorem calls_findMonthlyAggregate {P : ApiQuery → Prop}
    {range : AnalyticsDateRange} (hoverview : P (.client (.selectOverview range)))
    (hcategories : P (.client (.selectCategories range)))
    (hmerchants : P (.client (.selectMerchants range))) :
    (findMonthlyAggregate range).Calls P := by
  apply (Proc.Calls.call hoverview).bind
  intro _
  apply (Proc.Calls.call hcategories).bind
  intro _
  apply (Proc.Calls.call hmerchants).bind
  intro _
  trivial

/-- An error of the ROLLBACK is dropped. -/
def findMonthlyAnalytics (ranges : MonthlyAnalyticsRanges) :
    ApiProgram MonthlyAnalyticsAggregates := do
  connect
  Proc.ensure
    (Proc.orElse
      (do
        clientQuery .beginRepeatableRead
        let current ← findMonthlyAggregate ranges.current
        let previous ← findMonthlyAggregate ranges.previous
        clientQuery .commit
        return ⟨current, previous⟩)
      fun error => (clientQuery .rollback).andThen fun _ =>
        Proc.throwing error)
    (release false)

def findMonthlyInsightsWithClient (lookup : MonthlyInsightsCacheLookup) :
    ApiProgram (Option MonthlyInsightsCacheRecord) := do
  let rows ← clientQuery (.selectMonthlyInsights lookup)
  return rows.head?

def findMonthlyInsights (lookup : MonthlyInsightsCacheLookup) :
    ApiProgram (Option MonthlyInsightsCacheRecord) := do
  connect
  Proc.ensure (findMonthlyInsightsWithClient lookup) (release false)

def saveMonthlyInsightsWithClient (input : SaveMonthlyInsightsInput) :
    ApiProgram Unit :=
  clientQuery (.upsertMonthlyInsights input)

def saveMonthlyInsights (input : SaveMonthlyInsightsInput) :
    ApiProgram Unit := do
  connect
  Proc.ensure (saveMonthlyInsightsWithClient input) (release false)

/-- The session that the callback gets. -/
def lockedCache : MonthlyInsightsCacheSession where
  findMonthlyInsights := findMonthlyInsightsWithClient
  saveMonthlyInsights := saveMonthlyInsightsWithClient

/-- `rollbackTransaction` with the handler that destroys the client, and the
`finally` block that releases it otherwise. -/
def rollbackAndRelease {α : Type} (originalError : Thrown) : ApiProgram α :=
  (clientQuery .rollback).andThen fun
    | .ok _ => (release false).andThen fun _ => Proc.throwing originalError
    | .error _ => (release true).andThen fun _ => Proc.throwing aggregateError

def withMonthlyInsightsGenerationLock {α : Type} (lockKey : JsString)
    (callback : MonthlyInsightsCacheSession → ApiProgram α) : ApiProgram α := do
  connect
  let locked : ApiProgram α := do
    clientQuery .begin
    clientQuery (.advisoryLock lockKey)
    let result ← callback lockedCache
    clientQuery .commit
    return result
  locked.andThen fun
    | .ok result => (release false).andThen fun _ => Proc.settled (.ok result)
    | .error error => rollbackAndRelease error

end StatementRepository

end StatementAnalyzer
