/-
The two tables as the analytics queries see them: the join, its half-open range
of days, the three aggregations, and one REPEATABLE READ transaction among the
commits of others.
-/
import StatementAnalyzer.Analytics.Months
import StatementAnalyzer.Async.Traces
import StatementAnalyzer.Database.MonthlyRepository
import StatementAnalyzer.Relational.Grouping
import StatementAnalyzer.Service.World

namespace StatementAnalyzer

open Async Relational

/-- The cast of a text to `date`.  The ISO form is read as it stands; whatever
else PostgreSQL takes for a date is left open. -/
structure DateCast where
  cast : JsString → Option CalendarDay
  iso : ∀ text day, dateParts text = some day →
    isCalendarDay day.1 day.2.1 day.2.2 = true → cast text = some day

/-- Both bounds of a range of days. -/
def DateCast.range (pg : DateCast) (range : AnalyticsDateRange) :
    Option (CalendarDay × CalendarDay) := do
  let first ← pg.cast range.start
  let last ← pg.cast range.endDate
  return (first, last)

/-- The rows of the two tables, with what their columns and constraints
guarantee. -/
structure Tables where
  ids : List Uuid
  statements : World
  nodup : ids.Nodup
  listed : ∀ id, (statements id).row ≠ none → id ∈ ids
  typed : ∀ id, ∀ transaction ∈ (statements id).transactions,
    transaction.storable = true
  unique : ∀ id, ((statements id).transactions.map
    CreateTransactionInput.lineNumber).Nodup

/-- A row of the join: a transaction next to the id of its statement. -/
abbrev JoinedRow := Uuid × CreateTransactionInput

namespace Tables

/-- Whether the statement is there and COMPLETED. -/
def completed (db : Tables) (id : Uuid) : Bool :=
  (db.statements id).row.any fun row => row.status = .completed

/-- The join, without its range of days. -/
def joined (db : Tables) : List JoinedRow :=
  db.ids.flatMap fun id =>
    if db.completed id then (db.statements id).transactions.map (id, ·) else []

/-- Whether the transaction is dated in the half-open range. -/
def dated (range : CalendarDay × CalendarDay) (row : JoinedRow) : Bool :=
  (dateParts row.2.transactionDate).any fun day =>
    CalendarDay.within day range.1 range.2

/-- `source`, which the three queries share. -/
def source (db : Tables) (range : CalendarDay × CalendarDay) : List JoinedRow :=
  db.joined.filter (dated range)

def amounts (rows : List JoinedRow) : Int :=
  (rows.map fun row => row.2.amount).sum

def overview (db : Tables) (range : CalendarDay × CalendarDay) :
    AnalyticsOverviewDatabaseRow :=
  ⟨amounts (db.source range), (db.source range).length⟩

/-- The rows of a query with GROUP BY, in no particular order. -/
def buckets (key : CreateTransactionInput → JsString) (db : Tables)
    (range : CalendarDay × CalendarDay) : List AnalyticsBucketDatabaseRow :=
  (groups (fun row => key row.2) (db.source range)).map fun group =>
    ⟨group.1, amounts group.2, group.2.length⟩

/-- ORDER BY the sum first, and then by name in the collation of the database,
which is left open. -/
structure Ordered (grouped rows : List AnalyticsBucketDatabaseRow) : Prop where
  perm : rows.Perm grouped
  descending : rows.Pairwise fun row row' => row'.amount ≤ row.amount

/-- What the analytics queries answer. -/
inductive Selects (pg : DateCast) (db : Tables) :
    (q : ApiClientQuery) → q.Answer → Prop
  | overview {range : AnalyticsDateRange} {days : CalendarDay × CalendarDay}
      (hrange : pg.range range = some days) :
      Selects pg db (.selectOverview range) [db.overview days]
  | categories {range : AnalyticsDateRange} {days : CalendarDay × CalendarDay}
      {rows : List AnalyticsBucketDatabaseRow}
      (hrange : pg.range range = some days)
      (hrows : Ordered (db.buckets CreateTransactionInput.category days) rows) :
      Selects pg db (.selectCategories range) rows
  | merchants {range : AnalyticsDateRange} {days : CalendarDay × CalendarDay}
      {rows : List AnalyticsBucketDatabaseRow}
      (hrange : pg.range range = some days)
      (hrows : Ordered (db.buckets CreateTransactionInput.merchantName days)
        rows) :
      Selects pg db (.selectMerchants range) rows

end Tables

/-- The session of `findMonthlyAnalytics`.  The snapshot of its transaction is
taken by the first query after BEGIN. -/
inductive SnapshotSession where
  | closed
  | idle
  | begun
  | reading (snapshot : Nat)

/-- A session, and how many transactions of others have been committed. -/
structure SnapshotState where
  now : Nat
  session : SnapshotSession

/-- A session inside a transaction that has not been ended. -/
def SnapshotSession.Open (now : Nat) : SnapshotSession → Prop
  | begun => True
  | reading snapshot => snapshot ≤ now
  | _ => False

/-- In the meantime others may commit. -/
def SnapshotState.Rely (w w' : SnapshotState) : Prop :=
  w.now ≤ w'.now ∧ w'.session = w.session

/-- How the calls of `findMonthlyAnalytics` are served, where `history n` is the
database after `n` commits.  Where `left` says so, the pool may hand out a client
that was released inside a transaction, and a BEGIN there is only warned of.  A
rejected call leaves the session in any state. -/
inductive SnapshotState.Serves (pg : DateCast) (left : Nat → Prop)
    (history : Nat → Tables) :
    SnapshotState → (op : ApiQuery) → Except Thrown op.Answer →
      SnapshotState → Prop
  | connected {now : Nat} :
      Serves pg left history ⟨now, .closed⟩ .connect (.ok ()) ⟨now, .idle⟩
  | reused {now : Nat} {session : SnapshotSession} (hleft : left now)
      (hopen : session.Open now) :
      Serves pg left history ⟨now, .closed⟩ .connect (.ok ()) ⟨now, session⟩
  | begun {now : Nat} :
      Serves pg left history ⟨now, .idle⟩ (.client .beginRepeatableRead)
        (.ok ()) ⟨now, .begun⟩
  | begunInside {now : Nat} {session : SnapshotSession}
      (hopen : session.Open now) :
      Serves pg left history ⟨now, session⟩ (.client .beginRepeatableRead)
        (.ok ()) ⟨now, session⟩
  | first {now : Nat} {q : ApiClientQuery} {rows : q.Answer}
      (hselects : (history now).Selects pg q rows) :
      Serves pg left history ⟨now, .begun⟩ (.client q) (.ok rows)
        ⟨now, .reading now⟩
  | next {now snapshot : Nat} {q : ApiClientQuery} {rows : q.Answer}
      (hselects : (history snapshot).Selects pg q rows) :
      Serves pg left history ⟨now, .reading snapshot⟩ (.client q) (.ok rows)
        ⟨now, .reading snapshot⟩
  | committed {now : Nat} {session : SnapshotSession} :
      Serves pg left history ⟨now, session⟩ (.client .commit) (.ok ()) ⟨now, .idle⟩
  | rolledBack {now : Nat} {session : SnapshotSession} :
      Serves pg left history ⟨now, session⟩ (.client .rollback) (.ok ())
        ⟨now, .idle⟩
  | released {now : Nat} {session : SnapshotSession} {destroy : Bool} :
      Serves pg left history ⟨now, session⟩ (.release destroy) (.ok ())
        ⟨now, .closed⟩
  | rejected {now : Nat} {session session' : SnapshotSession} {op : ApiQuery}
      {error : Thrown} :
      Serves pg left history ⟨now, session⟩ op (.error error) ⟨now, session'⟩

/-- The snapshots that a call between these two moments can read: one that was
current during the call, or an older one of a client left inside. -/
def Readable (left : Nat → Prop) (began ended snapshot : Nat) : Prop :=
  snapshot ≤ ended ∧
    ((∀ now, began ≤ now → now ≤ ended → ¬left now) → began ≤ snapshot)

theorem Readable.mono {left : Nat → Prop} {began ended began' ended' snapshot : Nat}
    (h : Readable left began' ended' snapshot) (hbegan : began ≤ began')
    (hended : ended' ≤ ended) : Readable left began ended snapshot := by
  refine ⟨h.1.trans hended, fun hnone => hbegan.trans (h.2 ?_)⟩
  intro now hfrom hto
  exact hnone now (hbegan.trans hfrom) (hto.trans hended)

end StatementAnalyzer
