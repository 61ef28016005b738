/-
The table `monthly_insights` and the advisory lock of one month, shared by the
requests of any number of API processes.  Of their transactions only the one
that holds the lock is followed: the others write nothing.  Each query reads
what is committed by then, and the lock is kept until its transaction ends.
-/
import StatementAnalyzer.Analytics.Conservation
import StatementAnalyzer.Async.System
import StatementAnalyzer.Database.InsightsTable
import StatementAnalyzer.Insights.MonthlyInsightsService

namespace StatementAnalyzer

open Async

/-- The row of a month. -/
def InsightsTable.row (pg : DateCast) (targetMonth : JsString)
    (table : InsightsTable) : Option MonthlyInsightsCacheRecord :=
  (pg.cast targetMonth).bind table

/-- Whether a transaction still belongs to its request.  A query that was
rejected leaves it to the server, which ends it some time later; a rejected
COMMIT may still be executed. -/
inductive TransactionFate where
  | live
  | abandoned
  | committing
deriving DecidableEq

/-- The transaction that holds the lock, and the row that it has written. -/
structure LockTransaction where
  owner : Tid
  draft : Option (CalendarDay × MonthlyInsightsCacheRecord)
  fate : TransactionFate

/-- The request does not go on with the transaction. -/
def LockTransaction.abandon (held : LockTransaction) : LockTransaction :=
  { held with fate :=
      if held.fate = .committing then .committing else .abandoned }

/-- The committed rows, the lock, and whose saves have been committed, the last
one first. -/
structure InsightsWorld where
  table : InsightsTable
  lock : Option LockTransaction
  saves : List Tid

/-- The calls that neither read nor change this part of the database. -/
def ApiQuery.elsewhere : ApiQuery → Bool
  | request _ | connect | release _ | analyze _ => true
  | client .begin | client .beginRepeatableRead => true
  | _ => false

namespace InsightsWorld

/-- The rows that a request reads: its own row is visible to it. -/
def visible (w : InsightsWorld) (t : Tid) : InsightsTable :=
  match w.lock with
  | none => w.table
  | some held =>
      if held.owner = t then
        match held.draft with
        | none => w.table
        | some (day, record) => Function.update w.table day (some record)
      else w.table

/-- The transaction has ended without a COMMIT. -/
def unlock (w : InsightsWorld) : InsightsWorld :=
  { w with lock := none }

/-- The transaction has been committed. -/
def commit (w : InsightsWorld) (held : LockTransaction) : InsightsWorld :=
  match held.draft with
  | none => w.unlock
  | some (day, record) =>
      { table := Function.update w.table day (some record)
        lock := none
        saves := held.owner :: w.saves }

def setLock (w : InsightsWorld) (held : LockTransaction) : InsightsWorld :=
  { w with lock := some held }

/-- The lock is held by a transaction of the request. -/
def Holds (w : InsightsWorld) (t : Tid) (held : LockTransaction) : Prop :=
  w.lock = some held ∧ held.owner = t

/-- What a rejected query of a request leaves behind. -/
inductive Rejects (pg : DateCast) (jsonb : Jsonb) (t : Tid) (w : InsightsWorld) :
    ApiClientQuery → InsightsWorld → Prop
  | untouched {q : ApiClientQuery} (hfree : ∀ held, ¬w.Holds t held) :
      Rejects pg jsonb t w q w
  | locked {lockKey : JsString} (hfree : w.lock = none) :
      Rejects pg jsonb t w (.advisoryLock lockKey)
        (w.setLock ⟨t, none, .abandoned⟩)
  | abandoned {q : ApiClientQuery} {held : LockTransaction}
      (holds : w.Holds t held) : Rejects pg jsonb t w q (w.setLock held.abandon)
  | lost {q : ApiClientQuery} {held : LockTransaction}
      (holds : w.Holds t held) : Rejects pg jsonb t w q w.unlock
  | written {input : SaveMonthlyInsightsInput} {held : LockTransaction}
      {day : CalendarDay} {record : MonthlyInsightsCacheRecord}
      (holds : w.Holds t held) (hwrites : input.Writes pg jsonb day record) :
      Rejects pg jsonb t w (.upsertMonthlyInsights input)
        (w.setLock { held.abandon with draft := some (day, record) })
  | committed {held : LockTransaction} (holds : w.Holds t held) :
      Rejects pg jsonb t w .commit (w.commit held)
  | committing {held : LockTransaction} (holds : w.Holds t held) :
      Rejects pg jsonb t w .commit (w.setLock { held with fate := .committing })
  | committedLate {held : LockTransaction} (holds : w.Holds t held)
      (hfate : held.fate = .committing) :
      Rejects pg jsonb t w .rollback (w.commit held)

/-- How the calls of a request are served, where `reads` is what its analytics
queries answer.  A ROLLBACK waits for the COMMIT before it. -/
inductive Serves (pg : DateCast) (jsonb : Jsonb)
    (reads : Tid → (q : ApiClientQuery) → q.Answer → Prop) (t : Tid) :
    InsightsWorld → (op : ApiQuery) → Except Thrown op.Answer →
      InsightsWorld → Prop
  | read {w : InsightsWorld} {q : ApiClientQuery} {rows : q.Answer}
      (hq : q.isSelect = true) (hreads : reads t q rows) :
      Serves pg jsonb reads t w (.client q) (.ok rows) w
  | locked {w : InsightsWorld} {lockKey : JsString} (hfree : w.lock = none) :
      Serves pg jsonb reads t w (.client (.advisoryLock lockKey)) (.ok ())
        (w.setLock ⟨t, none, .live⟩)
  | selected {w : InsightsWorld} {lookup : MonthlyInsightsCacheLookup}
      {rows : List MonthlyInsightsCacheRecord}
      (hselect : (w.visible t).select pg lookup = some rows) :
      Serves pg jsonb reads t w (.client (.selectMonthlyInsights lookup))
        (.ok rows) w
  | upserted {w : InsightsWorld} {input : SaveMonthlyInsightsInput}
      {held : LockTransaction} {day : CalendarDay}
      {record : MonthlyInsightsCacheRecord} (holds : w.Holds t held)
      (hwrites : input.Writes pg jsonb day record) :
      Serves pg jsonb reads t w (.client (.upsertMonthlyInsights input)) (.ok ())
        (w.setLock { held with draft := some (day, record) })
  | committed {w : InsightsWorld} {held : LockTransaction}
      (holds : w.Holds t held) :
      Serves pg jsonb reads t w (.client .commit) (.ok ()) (w.commit held)
  | rolledBack {w : InsightsWorld} {held : LockTransaction}
      (holds : w.Holds t held) :
      Serves pg jsonb reads t w (.client .rollback) (.ok ()) w.unlock
  | committedLate {w : InsightsWorld} {held : LockTransaction}
      (holds : w.Holds t held) (hfate : held.fate = .committing) :
      Serves pg jsonb reads t w (.client .rollback) (.ok ()) (w.commit held)
  | ended {w : InsightsWorld} {q : ApiClientQuery} {answer : Except Thrown q.Answer}
      (hq : q = .commit ∨ q = .rollback) (hfree : ∀ held, ¬w.Holds t held) :
      Serves pg jsonb reads t w (.client q) answer w
  | rejected {w w' : InsightsWorld} {q : ApiClientQuery} {error : Thrown}
      (hrejects : Rejects pg jsonb t w q w') :
      Serves pg jsonb reads t w (.client q) (.error error) w'
  | now {w : InsightsWorld} {date : JsDate} :
      Serves pg jsonb reads t w .now (.ok date) w
  | elsewhere {w : InsightsWorld} {op : ApiQuery}
      {answer : Except Thrown op.Answer} (hop : op.elsewhere = true) :
      Serves pg jsonb reads t w op answer w

/-- A process dies, and with it the connections of its requests. -/
inductive Crashes (t : Tid) (w : InsightsWorld) : InsightsWorld → Prop
  | untouched (hfree : ∀ held, ¬w.Holds t held) : Crashes t w w
  | abandoned {held : LockTransaction} (holds : w.Holds t held) :
      Crashes t w (w.setLock held.abandon)

/-- What happens by itself: rows of other months are saved, a lock query that
was given up is served after all, and a transaction that was given up ends. -/
inductive Drifts (pg : DateCast) (targetMonth : JsString) (w : InsightsWorld) :
    InsightsWorld → Prop
  | others {table : InsightsTable}
      (hrow : table.row pg targetMonth = w.table.row pg targetMonth) :
      Drifts pg targetMonth w { w with table }
  | locked {t : Tid} (hfree : w.lock = none) :
      Drifts pg targetMonth w (w.setLock ⟨t, none, .abandoned⟩)
  | ended {held : LockTransaction} (hheld : w.lock = some held)
      (hfate : held.fate ≠ .live) : Drifts pg targetMonth w w.unlock
  | committed {held : LockTransaction} (hheld : w.lock = some held)
      (hfate : held.fate = .committing) :
      Drifts pg targetMonth w (w.commit held)

end InsightsWorld

/-- An aggregate that a request makes of what its queries answer. -/
def ReadsAggregate (reads : (q : ApiClientQuery) → q.Answer → Prop)
    (range : AnalyticsDateRange) (aggregate : MonthlyAnalyticsAggregate) : Prop :=
  ∃ overview categories merchants, reads (.selectOverview range) overview ∧
    reads (.selectCategories range) categories ∧
    reads (.selectMerchants range) merchants ∧
    aggregateOfRows overview categories merchants = .ok aggregate

/-- What the requests of a month have in common, and the rows before the first
of them.  `reads` is what the analytics queries of each of them answer, and they
all make the same input of it. -/
structure InsightsMonth where
  pg : DateCast
  jsonb : Jsonb
  options : MonthlyInsightsServiceOptions
  year : Int
  month : Int
  ranges : MonthlyAnalyticsRanges
  isRanges : getMonthlyAnalyticsRanges year month = .ok ranges
  reads : Tid → (q : ApiClientQuery) → q.Answer → Prop
  input : CompactInsightsInput
  sameInput : ∀ t current previous,
    ReadsAggregate (reads t) ranges.current current →
      ReadsAggregate (reads t) ranges.previous previous →
        insightsInput year month ⟨current, previous⟩ = input
  initial : InsightsTable

def InsightsMonth.lookup (m : InsightsMonth) : MonthlyInsightsCacheLookup :=
  insightsLookup m.options m.ranges m.input

/-- Any number of requests of the month, in any number of processes.  Every
client is checked out outside a transaction, and a connection is lost with its
process or with one of its queries. -/
def InsightsMonth.requests (m : InsightsMonth) :
    System InsightsWorld ApiQuery ApiQuery.Answer Thrown
      MonthlyInsightsResponse where
  init w := w = ⟨m.initial, none, []⟩
  exec t op w answer w' :=
    InsightsWorld.Serves m.pg m.jsonb m.reads t w op answer w'
  start _ p w w' := p = getMonthlyInsights m.options m.year m.month ∧ w' = w
  crash := InsightsWorld.Crashes
  env := InsightsWorld.Drifts m.pg m.ranges.current.start

end StatementAnalyzer
