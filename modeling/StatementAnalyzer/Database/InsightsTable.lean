/-
The table `monthly_insights` as one request sees it: the rows that others have
committed, and what its own transaction has written.
-/
import StatementAnalyzer.Database.MonthlyTables
import StatementAnalyzer.Insights.StoredDocument

namespace StatementAnalyzer

open Async

/-- A jsonb column: the values that it takes, and what it returns for them. -/
structure Jsonb where
  store : JsValue → Option JsValue
  equal : ∀ value stored, store value = some stored → value.JsonEqual stored

/-- The rows by their `target_month`.  The text that stands for it in a record
is the one it was saved under; nothing reads it. -/
abbrev InsightsTable := CalendarDay → Option MonthlyInsightsCacheRecord

/-- The WHERE clause, behind the month. -/
def MonthlyInsightsCacheRecord.matches (record : MonthlyInsightsCacheRecord)
    (lookup : MonthlyInsightsCacheLookup) : Bool :=
  record.analyticsVersion = lookup.analyticsVersion &&
    record.modelId = lookup.modelId &&
    record.promptVersion = lookup.promptVersion

/-- The SELECT; it fails where the month is no date. -/
def InsightsTable.select (pg : DateCast) (table : InsightsTable)
    (lookup : MonthlyInsightsCacheLookup) :
    Option (List MonthlyInsightsCacheRecord) := do
  let day ← pg.cast lookup.targetMonth
  return ((table day).filter fun record => record.matches lookup).toList

/-- The row that an upsert writes; an invalid `Date` has no timestamp. -/
inductive SaveMonthlyInsightsInput.Writes (pg : DateCast) (jsonb : Jsonb)
    (input : SaveMonthlyInsightsInput) :
    CalendarDay → MonthlyInsightsCacheRecord → Prop
  | mk {day : CalendarDay} {stored : JsValue} {time : Int}
      (cast : pg.cast input.targetMonth = some day)
      (store : jsonb.store input.insights.toJson = some stored)
      (generatedAt : input.generatedAt = some time) :
      Writes pg jsonb input day {
        input.toMonthlyInsightsCacheLookup with
        insights := stored
        generatedAt := some time }

/-- The committed rows, the row that the request's transaction has written, and
the one that its COMMIT has kept. -/
structure CacheState where
  table : InsightsTable
  draft : Option (CalendarDay × MonthlyInsightsCacheRecord)
  kept : Option MonthlyInsightsCacheRecord

namespace CacheState

/-- The committed row of a month. -/
def row (pg : DateCast) (targetMonth : JsString) (s : CacheState) :
    Option MonthlyInsightsCacheRecord :=
  (pg.cast targetMonth).bind s.table

/-- The rows that the request reads: its own row is visible to it. -/
def visible (s : CacheState) : InsightsTable :=
  match s.draft with
  | none => s.table
  | some (day, record) => Function.update s.table day (some record)

/-- The transaction has been committed. -/
def committed (s : CacheState) : CacheState :=
  match s.draft with
  | none => s
  | some (_, record) => ⟨s.visible, none, some record⟩

/-- Others may save any rows, but not in the month that the request has
committed. -/
def Rely (pg : DateCast) (targetMonth : JsString) (s s' : CacheState) : Prop :=
  s'.draft = s.draft ∧ s'.kept = s.kept ∧
    (s.kept.isSome = true → s'.row pg targetMonth = s.row pg targetMonth)

/-- How the calls of a request are served.  A rejected upsert or COMMIT may
have had its effect. -/
inductive Serves (pg : DateCast) (jsonb : Jsonb) :
    CacheState → (op : ApiQuery) → Except Thrown op.Answer → CacheState → Prop
  | selected {s : CacheState} {lookup : MonthlyInsightsCacheLookup}
      {rows : List MonthlyInsightsCacheRecord}
      (hselect : s.visible.select pg lookup = some rows) :
      Serves pg jsonb s (.client (.selectMonthlyInsights lookup)) (.ok rows) s
  | upserted {s : CacheState} {input : SaveMonthlyInsightsInput}
      {day : CalendarDay} {record : MonthlyInsightsCacheRecord}
      {answer : Except Thrown Unit}
      (hwrites : input.Writes pg jsonb day record) :
      Serves pg jsonb s (.client (.upsertMonthlyInsights input)) answer
        { s with draft := some (day, record) }
  | committed {s : CacheState} {answer : Except Thrown Unit} :
      Serves pg jsonb s (.client .commit) answer s.committed
  | rolledBack {s : CacheState} {answer : Except Thrown Unit} :
      Serves pg jsonb s (.client .rollback) answer { s with draft := none }
  | rejected {s : CacheState} {op : ApiQuery} {error : Thrown} :
      Serves pg jsonb s op (.error error) s
  | other {s : CacheState} {op : ApiQuery} {answer : Except Thrown op.Answer}
      (hselect : ∀ lookup, op ≠ .client (.selectMonthlyInsights lookup))
      (hupsert : ∀ input, op ≠ .client (.upsertMonthlyInsights input))
      (hcommit : op ≠ .client .commit) (hrollback : op ≠ .client .rollback) :
      Serves pg jsonb s op answer s

end CacheState

end StatementAnalyzer
